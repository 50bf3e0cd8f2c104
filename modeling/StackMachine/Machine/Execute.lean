import StackMachine.Machine.Basic

/-!
# Executing one instruction

The effect of every operation on the machine. An operation works on the machine step by
step, popping and pushing without asking whether that succeeded; what can go wrong is
checked before the first change.

## Main definitions

* `Machine.Effect`: a machine, and why an instruction could not be executed on it.
* `Machine.floorDivide`: floor division, by way of truncating division.
* `Machine.act`: the effect of an operation that the stack allows.
* `Machine.perform`: the effect of an operation.
* `Machine.execute`: the effect of an instruction, whose tag may be undefined.
-/

namespace StackMachine

namespace Machine

/-- What executing leaves behind: the machine, and the cause if it could not be done. -/
abbrev Effect := Machine × Option FaultCause

/-- Fails, with the machine as it is now. -/
def refuse (m : Machine) (cause : FaultCause) : Effect :=
  (m, some cause)

/-- Succeeds, with the instruction pointer at an address. -/
def goTo (m : Machine) (address : Int) : Effect :=
  ({ m with ip := address }, none)

/-- Succeeds, with the instruction pointer on the next instruction. -/
def proceed (m : Machine) : Effect :=
  m.goTo (m.ip + 1)

/-! ### Arithmetic -/

/-- The exact result of an operation on two entries. -/
def twoEntryResult (op : Opcode) (a b : Int32) : Int :=
  match op with
  | .add => a.toInt + b.toInt
  | .sub => a.toInt - b.toInt
  | .mul => a.toInt * b.toInt
  | .and => (a &&& b).toInt
  | .or => (a ||| b).toInt
  | .xor => (a ^^^ b).toInt
  | _ => 0

/-- The exact result of an operation on one entry. -/
def oneEntryResult (op : Opcode) (a : Int32) : Int :=
  match op with
  | .not => (~~~a).toInt
  | .dec => a.toInt - 1
  | _ => a.toInt + 1

/-- The quotient rounded down and the remainder that goes with it, which has the sign of the
divisor: division toward zero, corrected where it rounded up. -/
def floorDivide (a b : Int) : Int × Int :=
  let quotient := a.tdiv b
  let remainder := a.tmod b
  if remainder ≠ 0 ∧ decide (remainder < 0) ≠ decide (b < 0) then (quotient - 1, remainder + b)
  else (quotient, remainder)

/-- The machine with a result on top of a stack and in the flags. -/
def withResult (m : Machine) (stack : Stack) (result : Int) : Machine :=
  { m with stack := stack.push (Int32.ofInt result), flags := Flags.ofResult result }

/-! ### Operations -/

/-- Replaces the two top entries by the result of an operation on them. -/
def actOnTwo (m : Machine) (op : Opcode) : Effect :=
  let (b, stack) := m.stack.pop
  let (a, stack) := stack.pop
  (m.withResult stack (twoEntryResult op a b)).proceed

/-- Replaces the top entry by the result of an operation on it. -/
def actOnOne (m : Machine) (op : Opcode) : Effect :=
  let (a, stack) := m.stack.pop
  (m.withResult stack (oneEntryResult op a)).proceed

/-- Replaces the two top entries by their floor quotient and, above it, the remainder. -/
def divide (m : Machine) : Effect :=
  let b := m.stack.peek
  if b = 0 then m.refuse .divideByZero
  else
    let stack := m.stack.pop.2
    let (a, stack) := stack.pop
    let (quotient, remainder) := floorDivide a.toInt b.toInt
    let m := m.withResult stack quotient
    { m with stack := m.stack.push (Int32.ofInt remainder) }.proceed

/-- Replaces the address on top by the data cell at it. -/
def loadCell (m : Machine) : Effect :=
  match m.peek m.stack.peek.toInt with
  | .error cause => m.refuse cause
  | .ok value => { m with stack := m.stack.pop.2.push value }.proceed

/-- Takes an address and, below it, a value, and writes the value to the data cell. -/
def storeCell (m : Machine) : Effect :=
  let address := m.stack.peek.toInt
  if m.hasCell address then
    let (value, stack) := m.stack.pop.2.pop
    { m with stack := stack, data := m.data.setIfInBounds address.toNat value }.proceed
  else m.refuse (.badAddress address)

/-- The effect of an operation that the stack allows. -/
def act (m : Machine) (op : Opcode) (operand : Int32) : Effect :=
  match op with
  | .nop => m.proceed
  | .halt => { m with halted := true }.proceed
  | .push => { m with stack := m.stack.push operand }.proceed
  | .pop => { m with stack := m.stack.pop.2 }.proceed
  | .dup => { m with stack := m.stack.push m.stack.peek }.proceed
  | .swap =>
    let (b, stack) := m.stack.pop
    let (a, stack) := stack.pop
    { m with stack := (stack.push b).push a }.proceed
  | .rot =>
    let (c, stack) := m.stack.pop
    let (b, stack) := stack.pop
    let (a, stack) := stack.pop
    { m with stack := ((stack.push b).push c).push a }.proceed
  | .add | .sub | .mul | .and | .or | .xor => m.actOnTwo op
  | .div => m.divide
  | .not | .inc | .dec => m.actOnOne op
  | .cmp =>
    let (b, stack) := m.stack.pop
    { m with
      stack := stack
      flags := Flags.ofResult (stack.peek.toInt - b.toInt) }.proceed
  | .load => m.loadCell
  | .store => m.storeCell
  | .jmp | .jz | .jnz | .jl | .jg | .jle | .jge =>
    if m.flags.taken op then m.goTo operand.toInt else m.proceed

/-- The effect of an operation: entries and room are checked first. -/
def perform (m : Machine) (op : Opcode) (operand : Int32) : Effect :=
  if !m.stack.has op.entriesNeeded then m.refuse .stackEmpty
  else if op.needsRoom && m.stack.isFull then m.refuse .stackFull
  else m.act op operand

/-- The effect of an instruction. -/
def execute (m : Machine) (i : Instr) : Effect :=
  match Opcode.ofTag? i.tag with
  | none => m.refuse (.badOpcode i.encode)
  | some op => m.perform op i.operand

end Machine

end StackMachine
