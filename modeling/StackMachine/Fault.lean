import StackMachine.Instr
import StackMachine.Text.Message

/-!
# Faults

An instruction that cannot be executed stops the machine with a fault, which records
the address, the instruction word and the cause.

## Main definitions

* `FaultCause`: why an instruction cannot be executed.
* `Instr.decode`: the instruction of a word, or why there is none.
* `Fault`: a cause with its place.
* `RuntimeError`: a fault with its source line.
-/

namespace StackMachine

/-- Why an instruction cannot be executed. -/
inductive FaultCause where
  /-- The stack has too few entries. -/
  | stackEmpty
  /-- The stack has no room. -/
  | stackFull
  /-- The divisor is zero. -/
  | divideByZero
  /-- The tag of the word is undefined. -/
  | badOpcode (word : UInt32)
  /-- There is no data cell at the address. -/
  | badAddress (address : Int)
  deriving DecidableEq

/-- The wording of a cause. -/
def FaultCause.message : FaultCause → Text
  | stackEmpty => "stack underflow"
  | stackFull => "stack overflow"
  | divideByZero => "division by zero"
  | badOpcode word =>
    Message.render "bad opcode 0x%02x in word 0x%08x"
      [.int (word.toNat % 256 : Nat), .int word.toNat]
  | badAddress address => Message.render "invalid memory address %d" [.int address]

/-- The instruction of a word, or the cause why the word cannot be executed. -/
def Instr.decode (word : UInt32) : Except FaultCause Instr :=
  match Instr.decode? word with
  | some i => .ok i
  | none => .error (.badOpcode word)

/-- What stopped a machine. -/
structure Fault where
  /-- The address of the instruction. -/
  ip : Int
  /-- The instruction word. -/
  word : UInt32
  /-- Why it could not be executed. -/
  cause : FaultCause
  deriving DecidableEq

/-- The wording of a fault: the address, the instruction if the word has one, and the cause. -/
def Fault.message (f : Fault) : Text :=
  match Instr.decode? f.word with
  | none => Message.render "ip %d %v" [.int f.ip, .text f.cause.message]
  | some i => Message.render "ip %d '%v' %v" [.int f.ip, i.text, .text f.cause.message]

/-- A fault with the number of the source line of its instruction, or zero. -/
structure RuntimeError where
  /-- The source line, or zero if it is not known. -/
  line : Int
  /-- What stopped the machine. -/
  fault : Fault
  deriving DecidableEq

/-- The wording of a runtime error: that of the fault, behind the source line if it is known. -/
def RuntimeError.message (e : RuntimeError) : Text :=
  if e.line = 0 then e.fault.message
  else Message.render "line %d %v" [.int e.line, .text e.fault.message]

end StackMachine
