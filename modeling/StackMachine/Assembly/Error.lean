import StackMachine.Instr
import StackMachine.Text.Message

/-!
# Assembly errors

What can be wrong with a source text, and where. A problem inside the body of a macro
is reported with the whole chain of calls that led to it.

## Main definitions

* `Assembly.Cause`: what is wrong.
* `Assembly.Problem`: a cause at a word, or a problem inside an expansion.
* `Assembly.SyntaxError`: a problem with its source line.
-/

namespace StackMachine

namespace Assembly

/-- What is wrong with a source text. -/
inductive Cause where
  /-- An equate definition is not a name and a value. -/
  | equateSyntax
  /-- The name of an equate is taken. -/
  | equateDuplicate
  /-- A label is defined twice. -/
  | labelDuplicate
  /-- A label is no identifier. -/
  | labelInvalid
  /-- No instruction follows a label. -/
  | labelLonely
  /-- A macro definition has no name, or a call has the wrong number of arguments. -/
  | macroSyntax
  /-- A macro is defined inside another. -/
  | macroNesting
  /-- The name of a macro is taken. -/
  | macroDuplicate
  /-- A macro definition has no end. -/
  | macroOpen
  /-- A macro definition ends that did not begin. -/
  | macroStrayEnd
  /-- A macro is called while it is being expanded. -/
  | macroRecursion
  /-- An instruction has too many words. -/
  | extraArguments
  /-- An instruction has no operand. -/
  | valueMissing
  /-- There is no such operation. -/
  | opcodeInvalid
  /-- A line is too long to be read. -/
  | lineTooLong
  /-- A label is referred to and not defined. -/
  | labelMissing (label : Text)
  /-- A word is no number. -/
  | badNumber (word : Text)
  /-- A word is no character. -/
  | badCharacter (word : Text)
  /-- An expression has no value. -/
  | badExpression (expression : Text)
  /-- An operand does not fit. -/
  | operandRange (value : Int)
  deriving DecidableEq

/-- The wording of a cause. -/
def Cause.message : Cause → Text
  | equateSyntax => ".equ syntax"
  | equateDuplicate => ".equ duplicated"
  | labelDuplicate => "label duplicated"
  | labelInvalid => "label invalid"
  | labelLonely => "label without instruction"
  | macroSyntax => ".macro syntax"
  | macroNesting => ".macro in .macro prohibited"
  | macroDuplicate => ".macro duplicated"
  | macroOpen => ".macro without .endm"
  | macroStrayEnd => ".endm without .macro"
  | macroRecursion => ".macro expands itself"
  | extraArguments => "excessive arguments"
  | valueMissing => "value missing"
  | opcodeInvalid => "opcode invalid"
  | lineTooLong => "bufio.Scanner: token too long"
  | labelMissing label => Message.render "label %v missing" [.text label]
  | badNumber word => Message.render "'%v' is not a number" [.text word]
  | badCharacter word => Message.render "'%v' is not a character" [.text word]
  | badExpression expression =>
    Message.render "$(%v) is not a valid expression" [.text expression]
  | operandRange value =>
    Message.render "operand %d does not fit in %d bits" [.int value, .int Instr.operandBits]

/-- A problem on a line: a cause at a word of the line, or a problem on a line of the body of a
macro that the line calls. -/
inductive Problem where
  /-- A cause at a word, which is empty if no word is to blame. -/
  | plain (token : Text) (cause : Cause)
  /-- A problem on a line of a macro body. -/
  | expansion (name : Text) (lineNo : Nat) (line : Text) (inner : Problem)
  deriving DecidableEq

/-- The wording of a problem inside the expansion of a macro, given that of the body line. -/
def expansionMessage (name : Text) (lineNo : Nat) (inner : Text) : Text :=
  Message.render "macro %v line %v %v" [.text name, .int lineNo, .text inner]

/-- The wording of a problem on a line. -/
def Problem.located (lineNo : Nat) (line : Text) : Problem → Text
  | plain [] cause =>
    Message.render "line %d '%v' %v" [.int lineNo, .text line, .text cause.message]
  | plain token cause =>
    Message.render "line %d '%v' at '%v' %v"
      [.int lineNo, .text line, .text token, .text cause.message]
  | expansion name bodyNo body inner =>
    Message.render "line %d '%v' %v"
      [.int lineNo, .text line, .text (expansionMessage name bodyNo (located bodyNo body inner))]

/-- A problem with the source line that it was found on. -/
structure SyntaxError where
  /-- The number of the line. -/
  lineNo : Nat
  /-- The line, without comment and surrounding blanks. -/
  line : Text
  /-- What is wrong on the line. -/
  problem : Problem
  deriving DecidableEq

/-- The wording of an error. -/
def SyntaxError.message (e : SyntaxError) : Text :=
  e.problem.located e.lineNo e.line

end Assembly

end StackMachine
