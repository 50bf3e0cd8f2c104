import StackMachine.Config
import StackMachine.Fault
import StackMachine.Flags
import StackMachine.Journal
import StackMachine.Ring

/-!
# The machine

A machine has an instruction memory, a data memory, an operand stack, an instruction
pointer and flags. It runs until it halts, which it does on a halt instruction, when it
leaves its program, or on a fault.

## Main definitions

* `Machine`: the state of a machine.
* `History.Entry`: what is remembered of an executed instruction.
* `Machine.new`, `Machine.reset`, `Machine.load`: where a run starts.
* `Machine.peek`, `Machine.poke`: access to data memory.
-/

namespace StackMachine

/-- What is remembered of an executed instruction. -/
structure History.Entry where
  /-- The text of the instruction. -/
  command : String
  /-- The address that it was executed from. -/
  ip : Int
  /-- The stack afterwards, bottom first; nothing if the stack was never used. -/
  stack : Option (List Int32)
  /-- The flags afterwards. -/
  flags : Flags
  deriving DecidableEq

/-- The most recent history entries. -/
abbrev History := Ring History.Entry

/-- The state of a machine. -/
structure Machine where
  /-- The sizes of the machine. -/
  config : Config
  /-- The instruction memory, if an image was loaded. -/
  image : Option (Array UInt32)
  /-- The data memory. -/
  data : Array Int32
  /-- The operand stack. -/
  stack : Stack
  /-- The instruction pointer. -/
  ip : Int
  /-- The condition flags. -/
  flags : Flags
  /-- Whether the machine has stopped. -/
  halted : Bool
  /-- The fault that stopped it, if one did. -/
  fault : Option Fault
  /-- The number of instructions executed. -/
  cycles : Nat
  /-- The text of the last instruction fetched. -/
  current : String
  /-- The history, if one is kept. -/
  history : Option History

namespace Machine

/-- The words of the instruction memory. -/
def code (m : Machine) : Array UInt32 :=
  m.image.getD #[]

/-- The start of a run: stack, flags, data memory and history are empty and the instruction
pointer is zero. The instruction memory is kept. -/
def reset (m : Machine) : Machine where
  config := m.config
  image := m.image
  data := Array.replicate m.config.dataSize.toNat 0
  stack := .empty m.config.stackLimit
  ip := 0
  flags := {}
  halted := false
  fault := none
  cycles := 0
  current := ""
  history := m.history.map Ring.clear

/-- A machine of the given sizes, with nothing loaded. -/
def new (config : Config) : Machine :=
  let sizes := config.normalize
  reset {
    config := sizes
    image := none
    data := #[]
    stack := .empty 0
    ip := 0
    flags := {}
    halted := false
    fault := none
    cycles := 0
    current := ""
    history := if 0 < sizes.traceDepth then some (Ring.new sizes.traceDepth.toNat) else none }

/-- Whether there is a data cell at an address. -/
def hasCell (m : Machine) (address : Int) : Bool :=
  0 ≤ address && address < m.data.size

/-- The data cell at an address. -/
def peek (m : Machine) (address : Int) : Except FaultCause Int32 :=
  if m.hasCell address then .ok (m.data.getD address.toNat 0)
  else .error (.badAddress address)

/-- The machine with one data cell changed. -/
def poke (m : Machine) (address : Int) (value : Int32) : Except FaultCause Machine :=
  if m.hasCell address then
    .ok { m with data := m.data.setIfInBounds address.toNat value }
  else .error (.badAddress address)

/-- Data memory with values written from cell `start` on; the address of every value is that of a
64-bit sum, and values without a cell are dropped. -/
def place (cells : Array Int32) (start : Int) : Nat → List Int32 → Array Int32
  | _, [] => cells
  | n, value :: rest =>
    let address := Numeral.wrap (start + n)
    let cells :=
      if 0 ≤ address ∧ address < cells.size then cells.setIfInBounds address.toNat value
      else cells
    place cells start (n + 1) rest

/-- Resets the machine with an image and initial data in place. -/
def load (m : Machine) (image : Option (Array UInt32)) (values : List Int32) (start : Int) :
    Machine :=
  let m := reset { m with image := image }
  { m with data := place m.data start 0 values }

/-! ### Journal -/

/-- What a reset reports. -/
def resetJournal : List Journal.Entry :=
  [Journal.debug "cpu: reset" []]

/-- What a load reports. -/
def loadJournal (image : Option (Array UInt32)) (values : List Int32) (start : Int) :
    List Journal.Entry :=
  resetJournal ++
    [Journal.debug "cpu: load"
      [("data", Numeral.decimal values.length), ("start", Numeral.decimal start),
       ("words", Numeral.decimal (image.getD #[]).size)]]

end Machine

end StackMachine
