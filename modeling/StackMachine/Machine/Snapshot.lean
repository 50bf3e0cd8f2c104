import StackMachine.Machine.Run

/-!
# Snapshots

What is shown of a machine: its registers and stack, a window of its data memory, its
instruction memory and its history.

## Main definitions

* `Snapshot`, `Machine.snapshot`: a view of a machine.
* `Snapshot.text`: the registers as lines of text.
-/

namespace StackMachine

/-- A view of a machine. -/
structure Snapshot where
  /-- The instruction pointer. -/
  ip : Int
  /-- The stack entries, bottom first. -/
  stack : List Int32
  /-- The leading window of data memory. -/
  data : List Int32
  /-- The instruction memory, if an image was loaded. -/
  image : Option (List UInt32)
  /-- The condition flags. -/
  flags : Flags
  /-- Whether the machine has stopped. -/
  halted : Bool
  /-- The fault that stopped it, if one did. -/
  fault : Option Fault
  /-- The number of instructions executed. -/
  cycles : Nat
  /-- The text of the last instruction fetched. -/
  current : String
  /-- The history, oldest entry first. -/
  history : List History.Entry
  deriving DecidableEq

/-- The number of data cells that a snapshot shows. -/
def Machine.window (m : Machine) : Nat :=
  if m.config.dataWindow < 0 ∨ m.data.size < m.config.dataWindow then m.data.size
  else m.config.dataWindow.toNat

/-- The view of a machine. -/
def Machine.snapshot (m : Machine) : Snapshot where
  ip := m.ip
  stack := m.stack.toList
  data := m.data.toList.take m.window
  image := m.image.map Array.toList
  flags := m.flags
  halted := m.halted
  fault := m.fault
  cycles := m.cycles
  current := m.current
  history := (m.history.map Ring.toList).getD []

namespace Snapshot

/-- The index of the top of the stack, or -1 if the stack is empty. -/
def sp (s : Snapshot) : Int :=
  s.stack.length - 1

/-- The wording of the fault, or nothing. -/
def error (s : Snapshot) : Text :=
  (s.fault.map Fault.message).getD []

/-- The stack entries between brackets. -/
def stackText (s : Snapshot) : String :=
  Numeral.listed (s.stack.map Int32.toInt)

/-- A line of register text. -/
def register (name : String) (value : Text) : Text :=
  Text.padLeft 7 name ++ ": " ++ value ++ "\n"

/-- The registers as lines of text. -/
def text (s : Snapshot) : Text :=
  register "pc" (Numeral.hexUpper 4 s.ip)
    ++ register "flags" s.flags.text
    ++ register "cycles" (Numeral.decimal s.cycles)
    ++ register "halted" (if s.halted then "true" else "false")
    ++ register "stack" s.stackText
    ++ (if s.current.isEmpty then [] else register "current" s.current)
    ++ (if s.error.isEmpty then [] else register "error" s.error)

end Snapshot

end StackMachine
