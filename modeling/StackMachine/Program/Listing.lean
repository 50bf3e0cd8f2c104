import StackMachine.Program.Basic

/-!
# Listings

The printed form of a program: for every statement its labels, its address, its word,
its instruction and its source line.

## Main definitions

* `Statement.listing`: the line of a statement.
* `Program.listing`: the listing of a program.
-/

namespace StackMachine

namespace Statement

/-- The instruction of a statement, and the label that its operand stands for. -/
def caption (s : Statement) : Text :=
  match s.link with
  | none => s.instr.text
  | some label => Text.ofString s.instr.text ++ " ; " ++ label

/-- The line of a statement: address, word, instruction and source line. -/
def listing (s : Statement) : Text :=
  Text.ofString (Numeral.hexUpper 4 s.ip ++ ": " ++ Numeral.hexUpper 8 s.instr.encode.toNat ++ "  ")
    ++ Text.padRight 16 s.caption
    ++ (if s.line = 0 then [] else Text.ofString (" ; line " ++ Numeral.decimal s.line))
    ++ "\n"

end Statement

/-- The listing of a program: before every statement a line for each label at its address. -/
def Program.listing (p : Program) : Text :=
  let labels := p.labelsInOrder
  p.statements.toList.flatMap fun s =>
    ((labels.filter (·.2 = s.ip)).flatMap fun label => label.1 ++ Text.ofString ":\n") ++ s.listing

end StackMachine
