import StackMachine.Assembly.Source
import StackMachine.Catalog
import StackMachine.Machine.Snapshot

/-!
# Sessions

A session is a machine together with the program in it and the instruction words and the
data that every start of the program begins with. Errors and inspection reports carry
source lines.

## Main definitions

* `Session`: a machine with its program.
* `Session.words`: the instruction words of the program.
* `Session.compile`, `Session.load`, `Session.loadWords`: installing a program.
* `Session.step`, `Session.run`: executing it.
* `Session.instruction`, `Session.stackInfo`: inspection.
* `Session.equates`: what source texts are told about the machine.
-/

namespace StackMachine

open Assembly

/-- A machine with the program in it, its instruction words and its initial data. -/
structure Session where
  /-- The machine. -/
  machine : Machine
  /-- The program, with its source. -/
  program : Program := {}
  /-- The instruction words that are in place when the program starts, if there are any. -/
  image : Option (Array UInt32) := none
  /-- The data that is in place when the program starts. -/
  data : List Int32 := []
  /-- The address of the first value of the initial data. -/
  dataStart : Int := 0

namespace Session

/-- The number of cycles that a run has if nothing else is said. -/
def defaultBudget : Int := 10000

/-- A session with nothing loaded. -/
def new (config : Config) : Session where
  machine := Machine.new config

/-- The instruction words of the program. -/
def words (s : Session) : Array UInt32 :=
  s.image.getD #[]

/-- The equates that describe the operands of instructions. -/
def operandEquates : List (String × String) :=
  [("OPERAND_MIN", Numeral.decimal Instr.operandMin),
   ("OPERAND_MAX", "0x" ++ Numeral.hex 0 Instr.patternMax)]

/-- The equates that describe a machine of given sizes. -/
def equates (config : Config) : Dictionary Text :=
  Dictionary.ofList <|
    (Dictionary.chain [operandEquates, config.defines]).map fun (name, value) =>
      (Text.ofString name, Text.ofString value)

/-- The equates that describe the machine of a session. -/
def defines (s : Session) : Dictionary Text :=
  equates s.machine.config

/-! ### Installing a program -/

/-- The start of the program, with its words and the initial data in place. -/
def reset (s : Session) : Session :=
  { s with machine := s.machine.load s.image s.data s.dataStart }

/-- The session with another program, at its start. -/
def load (s : Session) (program : Program) : Session :=
  reset { s with program := program, image := some program.image }

/-- The assembler for the machine of a session. -/
def assembler (s : Session) : Assembler :=
  { predefines := s.defines }

/-- Assembles a source text and loads it; on an error the old program stays. -/
def compile [Interpreter] (s : Session) (source : Text) : Except SyntaxError Session :=
  (s.assembler.parse source).2.map s.load

/-- The statements of the words from address `ip` on; words without an instruction have none. -/
def statementsFrom (ip : Nat) : List UInt32 → List Statement
  | [] => []
  | word :: rest =>
    match Instr.decode? word with
    | none => statementsFrom (ip + 1) rest
    | some i =>
      { ip := ip, words := Text.fields i.text, instr := i } :: statementsFrom (ip + 1) rest

/-- The session with an image of words, at its start. Words without an instruction are kept and
stop the machine when it comes to them. -/
def loadWords (s : Session) (words : Option (Array UInt32)) : Session :=
  reset { s with
    program := { statements := (statementsFrom 0 (words.getD #[]).toList).toArray }
    image := words }

/-! ### Execution -/

/-- The source line of the next instruction, or zero. -/
def lineNo (s : Session) : Int :=
  s.program.lineAt s.machine.ip

/-- The fault of the machine with a source line. -/
def error? (s : Session) (line : Int) : Option RuntimeError :=
  s.machine.fault.map fun fault => ⟨line, fault⟩

/-- Executes one instruction; an error has the line that the instruction came from. -/
def step (s : Session) : Session × Option RuntimeError :=
  let next := { s with machine := s.machine.step }
  (next, next.error? s.lineNo)

/-- Executes until the machine halts or the budget is spent. -/
def run (s : Session) (budget : Int) : Session × Option RuntimeError :=
  let next := { s with machine := s.machine.run budget }
  (next, next.error? next.lineNo)

/-- The session with one data cell changed. -/
def poke (s : Session) (address : Int) (value : Int32) : Except FaultCause Session :=
  (s.machine.poke address value).map fun m => { s with machine := m }

/-! ### Inspection -/

/-- What is told about the instruction at an address. -/
structure InstructionInfo where
  /-- The address. -/
  ip : Int
  /-- The instruction word. -/
  word : UInt32
  /-- The tag of the word. -/
  tag : UInt8
  /-- The operand. -/
  operand : Int32
  /-- Whether the word has an instruction. -/
  valid : Bool
  /-- The assembly text. -/
  text : String
  /-- What the instruction does. -/
  description : Text
  /-- The source line, or zero. -/
  line : Int
  /-- The source words. -/
  source : Text
  /-- The labels at the address. -/
  labels : List Text
  deriving DecidableEq

/-- There is no instruction at an address. -/
structure NoInstruction where
  /-- The address. -/
  address : Int
  deriving DecidableEq

/-- The wording of the error. -/
def NoInstruction.message (e : NoInstruction) : Text :=
  Message.render "invalid instruction address %d" [.int e.address]

/-- What is told about the word at an address. -/
def describe (s : Session) (ip : Int) (word : UInt32) : InstructionInfo :=
  let decoded := Instr.decode? word
  { ip := ip
    word := word
    tag := Instr.wordTag word
    operand := (decoded.map Instr.operand).getD (Instr.wordOperand word)
    valid := decoded.isSome
    text := Instr.describeWord word
    description :=
      match decoded with
      | some i => Opcode.tagDescription i.tag
      | none => Message.render "unknown instruction" []
    line := s.program.lineAt ip
    source := ((s.program.at? ip).map fun statement => Text.join " " statement.words).getD []
    labels := s.program.labelsAt ip }

/-- What is told about the instruction at an address. -/
def instruction (s : Session) (ip : Int) : Except NoInstruction InstructionInfo :=
  if ip < 0 then .error ⟨ip⟩
  else
    match s.words[ip.toNat]? with
    | none => .error ⟨ip⟩
    | some word => .ok (s.describe ip word)

/-- A summary of the operand stack. Of an empty stack all numbers are zero. -/
structure StackInfo where
  /-- The number of entries. -/
  size : Nat
  /-- The greatest depth. -/
  limit : Int
  /-- The top entry. -/
  top : Int32
  /-- The smallest entry. -/
  least : Int32
  /-- The greatest entry. -/
  greatest : Int32
  /-- The sum of the entries. -/
  sum : Int
  /-- The entries, bottom first. -/
  entries : List Int32
  deriving DecidableEq

/-- The entry that no other goes before, or zero if there are no entries. -/
def extreme (before : Int32 → Int32 → Bool) : List Int32 → Int32
  | [] => 0
  | first :: rest =>
    rest.foldl (fun found value => if before value found then value else found) first

/-- The summary of the operand stack. -/
def stackInfo (s : Session) : StackInfo :=
  let stack := s.machine.stack
  { size := stack.depth
    limit := s.machine.config.stackLimit
    top := stack.items.head?.getD 0
    least := extreme (· < ·) stack.items
    greatest := extreme (· > ·) stack.items
    sum := stack.items.foldl (fun total value => total + value.toInt) 0
    entries := stack.toList }

/-! ### Journal -/

/-- What a reset reports. -/
def resetJournal (s : Session) : List Journal.Entry :=
  Machine.loadJournal s.image s.data s.dataStart

/-- What loading a program reports. -/
def loadJournal (s : Session) (program : Program) : List Journal.Entry :=
  (s.load program).resetJournal

/-- What loading words reports. -/
def loadWordsJournal (s : Session) (words : Option (Array UInt32)) : List Journal.Entry :=
  (s.loadWords words).resetJournal

/-- What compiling reports. -/
def compileJournal [Interpreter] (s : Session) (source : Text) : List Journal.Entry :=
  s.assembler.parseJournal source ++
    match s.compile source with
    | .ok next => next.resetJournal
    | .error _ => []

/-- What a step reports. -/
def stepJournal (s : Session) : List Journal.Entry :=
  s.machine.stepJournal

/-- What a run reports. -/
def runJournal (s : Session) (budget : Int) : List Journal.Entry :=
  let after := s.machine.run budget
  s.machine.runJournal budget ++
    [Journal.debug "emulator: run"
      [("cycle", Numeral.decimal after.cycles),
       ("halted", if after.halted then "true" else "false"),
       ("ip", Numeral.decimal after.ip)]]

end Session

end StackMachine
