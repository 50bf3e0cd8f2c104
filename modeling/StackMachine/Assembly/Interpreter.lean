import StackMachine.Text.Literal

/-!
# Interpreters of expressions

Expressions are written in a scripting language, and the assembler leaves them to an interpreter
of that language, which is not part of it. An interpreter executes a program, for which some names
stand for integers, and tells what the names that the program assigns stand for afterwards. The
assembler makes a program of an expression, and takes the value of one name from it.

Whatever assembles a line depends on the interpreter, which is bound once as an instance.

## Main definitions

* `Interpreter`: an interpreter of the language of expressions.
* `Expression.program`: the program that the assembler makes of an expression.
* `Expression.evaluate?`: the integer that an expression stands for.
-/

namespace StackMachine

namespace Assembly

/-- What a name stands for after a program, as far as the assembler looks at it. -/
inductive Global where
  /-- An integer of any size. -/
  | int (n : Int)
  /-- Anything else. -/
  | other
  deriving DecidableEq

/-- An interpreter of the language of expressions. -/
class Interpreter where
  /-- What the names stand for that a program assigns, if it is executed without an error. The
  integers are there from the beginning. -/
  execute (integers : Text → Option Int) (program : Text) : Option (Text → Option Global)

namespace Expression

/-- The name that receives the value of an expression. -/
def resultName : Text := "rc"

/-- The program that assigns the value of an expression. -/
def program (expression : Text) : Text :=
  resultName ++ "=" ++ expression ++ "\n"

variable [Interpreter]

/-- What an expression stands for, if its program is executed without an error and assigns it. -/
def result? (integers : Text → Option Int) (expression : Text) : Option Global :=
  (Interpreter.execute integers (program expression)).bind fun globals => globals resultName

/-- The 64-bit integer that an expression stands for. -/
def evaluate? (integers : Text → Option Int) (expression : Text) : Option Int :=
  match result? integers expression with
  | some (.int n) => if Literal.fits 64 n then some n else none
  | _ => none

end Expression

end Assembly

end StackMachine
