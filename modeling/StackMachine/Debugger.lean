import StackMachine.Report
import StackMachine.Session

/-!
# The debugger

A debugger reads commands, one a line, and executes them on a session. Before the first
command, and after every command that moves the machine, it tells where the machine is.

## Main definitions

* `Debugger.Command`, `Debugger.Command.ofLine`: the commands and how they are written.
* `Debugger.execute`: what a command does and prints.
* `Debugger.interact`: a whole dialogue.
-/

namespace StackMachine

/-- A session under a debugger. -/
structure Debugger where
  /-- The session. -/
  session : Session
  /-- The number of cycles that a `c` command may take. -/
  budget : Int

namespace Debugger

/-! ### Commands -/

/-- What a line of input asks for. -/
inductive Command where
  /-- End the dialogue. -/
  | quit
  /-- Execute a number of instructions. -/
  | step (count : Int)
  /-- Execute until the machine halts. -/
  | proceed
  /-- Show the registers. -/
  | print
  /-- Describe an instruction, by default the next. -/
  | describe (address : Option Int)
  /-- Show a data cell. -/
  | peek (address : Int)
  /-- Change a data cell. -/
  | poke (address value : Int)
  /-- Show the stack. -/
  | stack
  /-- Return to the start of the program. -/
  | reset
  /-- A memory command without an address. -/
  | memoryUsage
  /-- A word that should be a number. -/
  | notNumber (word : Text)
  /-- A word that names no command. -/
  | unknown (word : Text)
  deriving DecidableEq

namespace Command

/-- The command that depends on a number. -/
def withNumber (word : Text) (command : Int → Command) : Command :=
  match Literal.integer? 64 word with
  | some n => command n
  | none => .notNumber word

/-- The step command with its arguments. -/
def ofStep : List Text → Command
  | [] => .step 1
  | count :: _ => withNumber count .step

/-- The instruction command with its arguments. -/
def ofDescribe : List Text → Command
  | [] => .describe none
  | address :: _ => withNumber address fun n => .describe (some n)

/-- The memory command with its arguments. -/
def ofMemory : List Text → Command
  | [] => .memoryUsage
  | [address] => withNumber address .peek
  | address :: value :: _ =>
    withNumber address fun a => withNumber value fun v => .poke a v

/-- The command with a name and arguments. -/
def ofWords (name : Text) (arguments : List Text) : Command :=
  if name = "q" ∨ name = "quit" then .quit
  else if name = "s" ∨ name = "step" then ofStep arguments
  else if name = "c" ∨ name = "continue" then .proceed
  else if name = "p" ∨ name = "print" then .print
  else if name = "i" ∨ name = "instruction" then ofDescribe arguments
  else if name = "m" ∨ name = "memory" then ofMemory arguments
  else if name = "k" ∨ name = "stack" then .stack
  else if name = "r" ∨ name = "reset" then .reset
  else .unknown name

/-- The command of a line; a blank line asks for one step. -/
def ofLine (line : Text) : Command :=
  match Text.fields line with
  | [] => .step 1
  | name :: arguments => ofWords name arguments

end Command

/-! ### Output -/

/-- The line of an error, if there is one. -/
def errorLine (error : Option RuntimeError) : Text :=
  (error.map fun e => Text.line e.message).getD []

/-- Where the machine is: the next instruction, or why there is none. -/
def position (d : Debugger) : Text :=
  let s := d.session.machine.snapshot
  let address := Numeral.hexUpper 4 s.ip
  if s.halted then
    Text.line (Text.ofString ("halted at " ++ address ++ " after " ++ Numeral.decimal s.cycles
      ++ " cycles"))
  else
    match d.session.instruction s.ip with
    | .error _ => Text.line (Text.ofString (address ++ ": end of program"))
    | .ok info =>
      Text.line (Text.ofString (address ++ ": ") ++ Text.padRight 16 info.text
        ++ Text.ofString (" stack " ++ s.stackText ++ " flags " ++ s.flags.text)
        ++ (if info.line = 0 then []
            else Text.ofString (" ; line " ++ Numeral.decimal info.line)))

/-- What is told about an instruction. -/
def instructionText (info : Session.InstructionInfo) : Text :=
  Text.line (Text.ofString (Numeral.hexUpper 4 info.ip ++ ": " ++ Numeral.hexUpper 8 info.word.toNat
      ++ "  ")
      ++ Text.padRight 16 info.text ++ " " ++ info.description)
    ++ (if info.line = 0 then []
        else Text.line (Text.ofString ("      line " ++ Numeral.decimal info.line ++ ": ")
          ++ info.source))
    ++ info.labels.flatMap fun label => Text.line ("      " ++ label ++ ":")

/-- What is told about the stack. -/
def stackText (info : Session.StackInfo) : Text :=
  Text.line (Text.ofString ("size " ++ Numeral.decimal info.size ++ "/"
      ++ Numeral.decimal info.limit ++ " stack " ++ Numeral.listed (info.entries.map Int32.toInt)))
    ++ (if info.size = 0 then []
        else Text.line (Text.ofString ("top " ++ Numeral.decimal info.top.toInt
          ++ " min " ++ Numeral.decimal info.least.toInt
          ++ " max " ++ Numeral.decimal info.greatest.toInt
          ++ " sum " ++ Numeral.decimal info.sum)))

/-- What is told about a data cell. -/
def cellText (address : Int) (value : Int32) : Text :=
  Text.line (Text.ofString ("[" ++ Numeral.decimal address ++ "] = " ++ Numeral.decimal value.toInt
    ++ " (0x" ++ Numeral.hex 8 value.toUInt32.toNat ++ ")"))

/-! ### Execution -/

/-- The debugger with another session. -/
def withSession (d : Debugger) (session : Session) : Debugger :=
  { d with session := session }

/-- At most `n` steps, with the errors printed on the way. -/
def stepFor : Nat → Session → Session × Text
  | 0, s => (s, [])
  | n + 1, s =>
    let (next, error) := s.step
    if next.machine.halted then (next, errorLine error)
    else stepFor n next

/-- The debugger after the machine has moved, with what was printed on the way and where the
machine is now. -/
def moved (d : Debugger) (session : Session) (printed : Text) : Debugger × Text :=
  let next := d.withSession session
  (next, printed ++ next.position)

/-- What a command does and prints. -/
def execute (d : Debugger) : Command → Debugger × Text
  | .quit => (d, [])
  | .step count =>
    let (session, printed) := stepFor count.toNat d.session
    d.moved session printed
  | .proceed =>
    let (session, error) := d.session.run d.budget
    d.moved session (errorLine error)
  | .print => (d, Text.line (Report.state d.session.machine.snapshot).text)
  | .describe address =>
    match d.session.instruction (address.getD d.session.machine.ip) with
    | .error e => (d, Text.line e.message)
    | .ok info => (d, instructionText info)
  | .peek address =>
    match d.session.machine.peek address with
    | .error cause => (d, Text.line cause.message)
    | .ok value => (d, cellText address value)
  | .poke address value =>
    match d.session.poke address (Int32.ofInt value) with
    | .error cause => (d, Text.line cause.message)
    | .ok session => (d.withSession session, [])
  | .stack => (d, stackText d.session.stackInfo)
  | .reset => d.moved d.session.reset []
  | .memoryUsage => (d, Text.line "m addr [value]")
  | .notNumber word => (d, Text.line (word ++ ": not a number"))
  | .unknown word => (d, Text.line (word ++ ": unknown command"))

/-- Executes the commands of some lines, each behind a prompt; a last prompt asks in vain. -/
def dialogue (prompt : Text) (d : Debugger) : List Text → Debugger × Text
  | [] => (d, prompt)
  | line :: rest =>
    match Command.ofLine line with
    | .quit => (d, prompt)
    | command =>
      let (next, printed) := d.execute command
      let (last, later) := dialogue prompt next rest
      (last, prompt ++ printed ++ later)

/-- The prompt that is shown to a person. -/
def prompt : Text := "(stackvm) "

/-- A whole dialogue: where the machine is, and then the commands of the input. A line that is too
long ends it. -/
def interact (d : Debugger) (prompt : Text) (input : Text) : Debugger × Text :=
  let (last, printed) := d.dialogue prompt (Lines.ofText input).lines
  (last, d.position ++ printed)

/-! ### Journal -/

/-- What at most `n` steps report. -/
def stepForJournal : Nat → Session → List Journal.Entry
  | 0, _ => []
  | n + 1, s =>
    s.stepJournal ++ if s.step.1.machine.halted then [] else stepForJournal n s.step.1

/-- What a command reports. -/
def commandJournal (d : Debugger) : Command → List Journal.Entry
  | .step count => stepForJournal count.toNat d.session
  | .proceed => d.session.runJournal d.budget
  | .reset => d.session.resetJournal
  | _ => []

/-- What the commands of some lines report. -/
def dialogueJournal (d : Debugger) : List Text → List Journal.Entry
  | [] => []
  | line :: rest =>
    match Command.ofLine line with
    | .quit => []
    | command => d.commandJournal command ++ dialogueJournal (d.execute command).1 rest

/-- What a whole dialogue reports. -/
def interactJournal (d : Debugger) (input : Text) : List Journal.Entry :=
  d.dialogueJournal (Lines.ofText input).lines

end Debugger

end StackMachine
