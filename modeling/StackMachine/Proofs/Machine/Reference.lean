import Mathlib.Data.Rat.Floor
import StackMachine.Flags

/-!
# The reference machine

What the operations of the machine mean, said over integers of any size. There is one rule
for each operation; where it does not apply, the operation cannot be executed. Results are
computed exactly, the flags describe the exact result, and it is reduced to signed 32 bits
only when it is pushed.

## Main definitions

* `Reference.State`: a state of the reference machine.
* `Reference.reduce`, `Reference.flagsOf`: what becomes of an exact result.
* `Reference.Step`: the rules.

## Main results

* `Reference.Step.deterministic`: an operation has at most one outcome.
* `Reference.Step.enough`, `Reference.Step.room`: what an outcome asks of the stack.
* `Reference.Step.within`: an outcome keeps the limit of the stack.
* `Reference.Step.ip_eq`, `Reference.Step.length_data`, `Reference.Step.halted_eq`: what an outcome
  does to the other parts of the machine.
-/

namespace StackMachine

namespace Reference

/-- A state of the reference machine. -/
structure State where
  /-- The stack entries, top first. -/
  stack : List Int
  /-- The data cells. -/
  data : List Int
  /-- The instruction pointer. -/
  ip : Int
  /-- The condition flags. -/
  flags : Flags
  /-- Whether the machine has stopped. -/
  halted : Bool

/-- An exact result reduced to signed 32 bits. -/
def reduce (result : Int) : Int :=
  Int.bmod result (2 ^ 32)

/-- The flags of an exact result. -/
def flagsOf (result : Int) : Flags where
  zero := decide (result = 0)
  negative := decide (result < 0)
  overflow := decide (¬(-2 ^ 31 ≤ result ∧ result < 2 ^ 31))

/-- The bits of an integer in two's complement. -/
def bits (n : Int) : BitVec 32 :=
  BitVec.ofInt 32 n

namespace State

/-- The next instruction with another stack. -/
def next (r : State) (stack : List Int) : State :=
  { r with stack := stack, ip := r.ip + 1 }

/-- The next instruction with an exact result pushed and in the flags. -/
def push (r : State) (stack : List Int) (result : Int) : State :=
  { r.next (reduce result :: stack) with flags := flagsOf result }

/-- The instruction at `target` if a condition holds, else the next one. -/
def branch (r : State) (target : Int) (condition : Prop) [Decidable condition] : State :=
  { r with ip := if condition then target else r.ip + 1 }

theorem ip_branch (r : State) (target : Int) (condition : Prop) [Decidable condition] :
    (r.branch target condition).ip = r.ip + 1 ∨ (r.branch target condition).ip = target := by
  by_cases h : condition
  · exact .inr (if_pos h)
  · exact .inl (if_neg h)

end State

/-- The outcome of an operation with a given operand, on a stack of at most `limit` entries. The
top entry of the stack stands first. -/
inductive Step (limit operand : Int) (r : State) : Opcode → State → Prop
  | nop : Step limit operand r .nop (r.next r.stack)
  | halt : Step limit operand r .halt { r.next r.stack with halted := true }
  | push (room : (r.stack.length : Int) < limit) :
      Step limit operand r .push (r.next (operand :: r.stack))
  | pop {a s} (top : r.stack = a :: s) : Step limit operand r .pop (r.next s)
  | dup {a s} (top : r.stack = a :: s) (room : (r.stack.length : Int) < limit) :
      Step limit operand r .dup (r.next (a :: a :: s))
  | swap {a b s} (top : r.stack = b :: a :: s) : Step limit operand r .swap (r.next (a :: b :: s))
  | rot {a b c s} (top : r.stack = c :: b :: a :: s) :
      Step limit operand r .rot (r.next (a :: c :: b :: s))
  | add {a b s} (top : r.stack = b :: a :: s) : Step limit operand r .add (r.push s (a + b))
  | sub {a b s} (top : r.stack = b :: a :: s) : Step limit operand r .sub (r.push s (a - b))
  | mul {a b s} (top : r.stack = b :: a :: s) : Step limit operand r .mul (r.push s (a * b))
  | and {a b s} (top : r.stack = b :: a :: s) :
      Step limit operand r .and (r.push s (bits a &&& bits b).toInt)
  | or {a b s} (top : r.stack = b :: a :: s) :
      Step limit operand r .or (r.push s (bits a ||| bits b).toInt)
  | xor {a b s} (top : r.stack = b :: a :: s) :
      Step limit operand r .xor (r.push s (bits a ^^^ bits b).toInt)
  | not {a s} (top : r.stack = a :: s) : Step limit operand r .not (r.push s (~~~bits a).toInt)
  | inc {a s} (top : r.stack = a :: s) : Step limit operand r .inc (r.push s (a + 1))
  | dec {a s} (top : r.stack = a :: s) : Step limit operand r .dec (r.push s (a - 1))
  | div {a b q : Int} {s : List Int} (top : r.stack = b :: a :: s) (divisor : b ≠ 0)
      (quotient : q = ⌊(a / b : ℚ)⌋) :
      Step limit operand r .div { r.push s q with stack := (a - b * q) :: reduce q :: s }
  | cmp {a b s} (top : r.stack = b :: a :: s) :
      Step limit operand r .cmp { r.next (a :: s) with flags := flagsOf (a - b) }
  | load {value : Int} {s : List Int} {k : Nat} (top : r.stack = (k : Int) :: s)
      (cell : r.data[k]? = some value) : Step limit operand r .load (r.next (value :: s))
  | store {value : Int} {s : List Int} {k : Nat} (top : r.stack = (k : Int) :: value :: s)
      (cell : k < r.data.length) :
      Step limit operand r .store { r.next s with data := r.data.set k value }
  | jmp : Step limit operand r .jmp (r.branch operand True)
  | jz : Step limit operand r .jz (r.branch operand (r.flags.zero = true))
  | jnz : Step limit operand r .jnz (r.branch operand (r.flags.zero = false))
  | jl : Step limit operand r .jl (r.branch operand (r.flags.negative = true))
  | jg : Step limit operand r .jg
      (r.branch operand (r.flags.negative = false ∧ r.flags.zero = false))
  | jle : Step limit operand r .jle
      (r.branch operand (r.flags.negative = true ∨ r.flags.zero = true))
  | jge : Step limit operand r .jge (r.branch operand (r.flags.negative = false))

namespace Step

variable {limit operand : Int} {op : Opcode} {r r' r'' : State}

/-- An operation has at most one outcome. -/
theorem deterministic (h : Step limit operand r op r') (h' : Step limit operand r op r'') :
    r' = r'' := by
  cases h <;> cases h' <;> simp_all

/-- An operation has an outcome only if the stack has the entries that it needs. -/
theorem enough (h : Step limit operand r op r') : op.entriesNeeded ≤ r.stack.length := by
  cases h <;> simp_all [Opcode.entriesNeeded]

/-- An operation has an outcome only if the stack has the room that it needs. -/
theorem room (h : Step limit operand r op r') (grows : op.needsRoom = true) :
    (r.stack.length : Int) < limit := by
  cases h with
  | push room => exact room
  | dup top room => exact room
  | _ => simp [Opcode.needsRoom] at grows

/-- An outcome stays within the limit. -/
theorem within (h : Step limit operand r op r') (hr : (r.stack.length : Int) ≤ limit) :
    (r'.stack.length : Int) ≤ limit := by
  cases h <;> simp_all [State.next, State.push, State.branch] <;> omega

/-- An outcome is on the next instruction, or at the operand of a jump. -/
theorem ip_eq (h : Step limit operand r op r') :
    r'.ip = r.ip + 1 ∨ op.isJump = true ∧ r'.ip = operand := by
  cases h with
  | jmp | jz | jnz | jl | jg | jle | jge =>
    exact (State.ip_branch _ _ _).imp id fun taken => ⟨rfl, taken⟩
  | _ => exact .inl rfl

/-- An outcome has as many data cells as before. -/
theorem length_data (h : Step limit operand r op r') : r'.data.length = r.data.length := by
  cases h <;> simp [State.next, State.push, State.branch]

/-- Only a halt instruction stops the machine. -/
theorem halted_eq (h : Step limit operand r op r') :
    r'.halted = (r.halted || decide (op = .halt)) := by
  cases h <;> simp [State.next, State.push, State.branch]

/-- A division leaves the floor quotient and, above it, the remainder that goes with it. -/
theorem stack_of_div (h : Step limit operand r .div r') :
    ∃ (a b : Int) (s : List Int), r.stack = b :: a :: s ∧ b ≠ 0 ∧
      r'.stack = (a - b * ⌊(a / b : ℚ)⌋) :: reduce ⌊(a / b : ℚ)⌋ :: s := by
  cases h with
  | div top divisor quotient => exact ⟨_, _, _, top, divisor, quotient ▸ rfl⟩

end Step

end Reference

end StackMachine
