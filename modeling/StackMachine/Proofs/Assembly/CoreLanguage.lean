import Mathlib.Data.Nat.Digits.Defs
import StackMachine.Assembly.Source

/-!
# The core language

Source texts without equates, macros, expressions and quoted characters, as data that
say how every part is written. A line has any number of labels and then at most one
instruction, with blanks around the parts and a comment behind them. An operand is a
decimal, a bit pattern or the name of a label, alone or between brackets.

The meaning of such a text needs no assembler: the instructions are those written, each
at the number of instructions before it, and so is a label.

## Main definitions

* `Core.Line`, `Core.Line.text`: a line and its written form.
* `Core.source`: the source text of some lines.
* `Core.instructions`, `Core.definitions`: the instructions and the labels of some lines.
* `Core.Acceptable`: the lines that have a program.
* `Core.Assembled`: the program that they have.
-/

namespace StackMachine

namespace Core

open Assembly

/-! ### Words -/

/-- Spaces and tabs. -/
structure Gap where
  text : Text
  blank : ∀ g ∈ text, g = .scalar ' ' ∨ g = .scalar '\t'

/-- The name of a label: an identifier that is not one of the standard equates. -/
@[ext] structure Name where
  text : Text
  identifier : isIdentifier text = true
  free : text ∉ Assembler.standardEquates.map Prod.fst
  deriving DecidableEq

/-- A digit as it is written: its value, and whether a letter is a capital. -/
structure Digit (base : Nat) where
  value : Fin base
  capital : Bool

/-- The character of a digit. -/
def Digit.char {base : Nat} (d : Digit base) : Char :=
  if d.capital then (Nat.digitChar d.value).toUpper else Nat.digitChar d.value

/-- One digit or more. -/
structure Digits (base : Nat) where
  list : List (Digit base)
  nonempty : list ≠ []

namespace Digits

variable {base : Nat}

/-- The written form of digits. -/
def text (ds : Digits base) : Text :=
  ds.list.map fun d => .scalar d.char

/-- The value of digits, of which the last is worth least. -/
def value (ds : Digits base) : Nat :=
  Nat.ofDigits base (ds.list.reverse.map fun d => d.value.val)

end Digits

/-- The sign of a decimal. -/
inductive Sign where
  | unsigned | plus | minus

namespace Sign

/-- The written form of a sign. -/
def text : Sign → Text
  | unsigned => []
  | plus => [.scalar '+']
  | minus => [.scalar '-']

/-- A magnitude with a sign. -/
def apply : Sign → Nat → Int
  | unsigned, n => n
  | plus, n => n
  | minus, n => -n

end Sign

/-- A literal; `capital` is the letter case of the mark of a bit pattern. -/
inductive Number where
  | decimal (sign : Sign) (digits : Digits 10)
  | hexadecimal (capital : Bool) (digits : Digits 16)
  | binary (capital : Bool) (digits : Digits 2)

namespace Number

/-- The written form of a literal. -/
def text : Number → Text
  | decimal sign digits => sign.text ++ digits.text
  | hexadecimal capital digits =>
    .scalar '0' :: .scalar (if capital then 'X' else 'x') :: digits.text
  | binary capital digits =>
    .scalar '0' :: .scalar (if capital then 'B' else 'b') :: digits.text

/-- The value of a literal. -/
def value : Number → Int
  | decimal sign digits => sign.apply digits.value
  | hexadecimal _ digits => digits.value
  | binary _ digits => digits.value

/-- A literal that an instruction can hold: a decimal of 24 bits with its sign, or a bit pattern of
24 bits. -/
def InRange : Number → Prop
  | decimal sign digits => -2 ^ 23 ≤ sign.apply digits.value ∧ sign.apply digits.value ≤ 2 ^ 23 - 1
  | hexadecimal _ digits => digits.value ≤ 2 ^ 24 - 1
  | binary _ digits => digits.value ≤ 2 ^ 24 - 1

instance : DecidablePred InRange
  | decimal _ _ => inferInstanceAs (Decidable (_ ∧ _))
  | hexadecimal _ _ => inferInstanceAs (Decidable (_ ≤ _))
  | binary _ _ => inferInstanceAs (Decidable (_ ≤ _))

/-- The value of a literal, read from its low 24 bits with their sign. -/
def signed (n : Number) : Int :=
  Int.bmod n.value (2 ^ 24)

end Number

/-! ### Instructions -/

/-- What an operand stands for. -/
inductive Term where
  | number (n : Number)
  | name (label : Name)

/-- The written form of what an operand stands for. -/
def Term.text : Term → Text
  | .number n => n.text
  | .name label => label.text

/-- An operand as it is written. -/
structure Operand where
  term : Term
  bracketed : Bool

/-- The written form of an operand. -/
def Operand.text (o : Operand) : Text :=
  if o.bracketed then .scalar '[' :: (o.term.text ++ [.scalar ']']) else o.term.text

/-- An operand behind the blanks that divide it from the mnemonic. -/
structure Argument where
  gap : Gap
  apart : gap.text ≠ []
  operand : Operand

/-- The written form of an operand and the blanks before it. -/
def Argument.text (a : Argument) : Text :=
  a.gap.text ++ a.operand.text

/-- An instruction as it is written: a mnemonic in any letter case, and an operand exactly if the
operation carries one. -/
structure Instruction where
  op : Opcode
  letters : List Char
  spelled : letters.map Char.toUpper = op.mnemonic.toList
  argument : Option Argument
  arity : argument.isSome = op.takesOperand

namespace Instruction

/-- The written form of the mnemonic. -/
def mnemonic (i : Instruction) : Text :=
  i.letters.map Glyph.scalar

/-- The written form of an instruction. -/
def text (i : Instruction) : Text :=
  i.mnemonic ++ (i.argument.map Argument.text).getD []

/-- The words of an instruction. -/
def words (i : Instruction) : List Text :=
  i.mnemonic :: (i.argument.map fun a => a.operand.text).toList

/-- What the operand stands for, if there is one. -/
def term (i : Instruction) : Option Term :=
  i.argument.map fun a => a.operand.term

end Instruction

/-! ### Lines -/

/-- The definition of a label, with blanks around its colon. -/
structure Label where
  name : Name
  before : Gap
  after : Gap

/-- The written form of the definition of a label. -/
def Label.text (l : Label) : Text :=
  l.name.text ++ l.before.text ++ .scalar ':' :: l.after.text

/-- A comment, which ends with its line. -/
structure Comment where
  content : Text
  oneLine : .scalar '\n' ∉ content

/-- The written form of a comment. -/
def Comment.text (c : Comment) : Text :=
  .scalar ';' :: c.content

/-- A line. -/
structure Line where
  indent : Gap
  labels : List Label
  instruction : Option Instruction
  trailing : Gap
  comment : Option Comment

namespace Line

/-- The written form of the instruction of a line and the blanks behind it. -/
def ending (line : Line) : Text :=
  (line.instruction.map Instruction.text).getD [] ++ line.trailing.text

/-- The written form of a line without its comment. -/
def body (line : Line) : Text :=
  line.indent.text ++ (line.labels.flatMap Label.text ++ line.ending)

/-- The written form of a line. -/
def text (line : Line) : Text :=
  line.body ++ (line.comment.map Comment.text).getD []

end Line

/-- The source text of some lines. A line feed at its end shows as an empty last line. -/
def source (lines : List Line) : Text :=
  Text.join "\n" (lines.map Line.text)

/-! ### Meaning -/

/-- The instructions of some lines, each with the number of its line; the first line has number
`lineNo`. -/
def instructions : Nat → List Line → List (Nat × Instruction)
  | _, [] => []
  | lineNo, line :: rest =>
    line.instruction.toList.map (lineNo, ·) ++ instructions (lineNo + 1) rest

/-- The labels of some lines, each with the number of instructions before it; there are `address`
instructions before the first line. -/
def definitions : Nat → List Line → List (Name × Nat)
  | _, [] => []
  | address, line :: rest =>
    line.labels.map (fun l => (l.name, address))
      ++ definitions (address + line.instruction.toList.length) rest

/-- The lines that have a program. -/
structure Acceptable (lines : List Line) : Prop where
  /-- No label is defined twice. -/
  distinct : ((definitions 0 lines).map Prod.fst).Nodup
  /-- Every label that is referred to is defined. -/
  defined : ∀ lineNo i name, (lineNo, i) ∈ instructions 1 lines → i.term = some (.name name) →
    name ∈ (definitions 0 lines).map Prod.fst
  /-- No label stands behind the last instruction. -/
  followed : ∀ name address, (name, address) ∈ definitions 0 lines →
    address < (instructions 1 lines).length
  /-- Every literal is in its range. -/
  inRange : ∀ lineNo i n, (lineNo, i) ∈ instructions 1 lines → i.term = some (.number n) →
    n.InRange

/-- The statement of an instruction at an address: `table` holds the labels and their addresses. -/
structure Instruction.Becomes (i : Instruction) (table : List (Name × Nat)) (lineNo address : Nat)
    (statement : Statement) : Prop where
  line : statement.line = lineNo
  ip : statement.ip = address
  words : statement.words = i.words
  tag : statement.instr.tag = i.op.tag
  bare : i.term = none → statement.instr.operand = 0 ∧ statement.link = none
  number : ∀ n, i.term = some (.number n) →
    statement.instr.operand.toInt = n.signed ∧ statement.link = none
  name : ∀ name, i.term = some (.name name) →
    (∃ target, (name, target) ∈ table ∧ statement.instr.operand.toInt = target) ∧
      statement.link = some name.text

/-- The program of some lines: their instructions in order, and their labels. -/
structure Assembled (lines : List Line) (p : Program) : Prop where
  size : p.size = (instructions 1 lines).length
  statements : ∀ (k lineNo : Nat) (i : Instruction),
    (instructions 1 lines)[k]? = some (lineNo, i) →
      ∃ statement, p.statements[k]? = some statement ∧
        i.Becomes (definitions 0 lines) lineNo k statement
  labels : p.labels = (definitions 0 lines).map fun (name, address) => (name.text, (address : Int))

end Core

end StackMachine
