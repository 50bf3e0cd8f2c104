import StackMachine.Opcode

/-!
# Condition flags

The flags describe the exact result of the last arithmetic or logical operation,
before it is cut to 32 bits, and decide the conditional jumps.

## Main definitions

* `Flags`, `Flags.ofResult`: the flags and how a result sets them.
* `Flags.taken`: whether a jump is taken.
* `Flags.text`: the three-letter form.
-/

namespace StackMachine

/-- The condition flags. -/
structure Flags where
  /-- The result was zero. -/
  zero : Bool := false
  /-- The result was negative. -/
  negative : Bool := false
  /-- The result does not fit in 32 bits. -/
  overflow : Bool := false
  deriving DecidableEq

namespace Flags

/-- The flags of an exact result. -/
def ofResult (result : Int) : Flags where
  zero := result = 0
  negative := result < 0
  overflow := 0x80000000 ≤ result || result < -0x80000000

/-- Whether the condition of a jump holds; an operation that is no jump has none. -/
def taken (f : Flags) : Opcode → Bool
  | .jmp => true
  | .jz => f.zero
  | .jnz => !f.zero
  | .jl => f.negative
  | .jg => !f.negative && !f.zero
  | .jle => f.negative || f.zero
  | .jge => !f.negative
  | _ => false

/-- A letter for every flag that is set and a dash for every other. -/
def text (f : Flags) : String :=
  (if f.zero then "Z" else "-") ++ (if f.negative then "N" else "-")
    ++ (if f.overflow then "V" else "-")

end Flags

end StackMachine
