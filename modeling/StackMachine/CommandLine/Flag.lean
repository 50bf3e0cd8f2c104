import StackMachine.Config
import StackMachine.DataList
import StackMachine.Session

/-!
# Commands and flags

The commands of the program, the flags that each of them knows, and the options that
the flags set. A switch needs no value; every other flag takes one.

## Main definitions

* `CommandLine.Options`: what flags can set.
* `CommandLine.Flag`, `CommandLine.Flag.set`: the flags and what they set.
* `CommandLine.Verb`, `CommandLine.Verb.flags`: the commands and their flags.
-/

namespace StackMachine

namespace CommandLine

/-- What flags can set. -/
structure Options where
  /-- Whether work is reported in detail. -/
  verbose : Bool := false
  /-- The preferred language of messages. -/
  language : Text := []
  /-- Whether only help is asked for. -/
  help : Bool := false
  /-- The path of the image file to write. -/
  output : Text := []
  /-- Whether labels are printed. -/
  labels : Bool := false
  /-- Whether the input is an image. -/
  binary : Bool := false
  /-- The initial data. -/
  data : Text := []
  /-- The address of the first value of the initial data. -/
  dataStart : Int := 0
  /-- The sizes of the machine. -/
  config : Config := Config.default
  /-- The number of cycles that a run may take. -/
  budget : Int := Session.defaultBudget
  /-- Whether data memory is printed. -/
  dump : Bool := false
  /-- Whether the state is printed as JSON. -/
  json : Bool := false
  deriving DecidableEq

/-! ### Flags -/

/-- A flag. -/
inductive Flag where
  | verbose | language | help | output | labels | binary | data | dataStart | dataSize
  | stackLimit | window | trace | budget | dump | json
  deriving DecidableEq

/-- What kind of value a flag has, and what the value sets. -/
inductive Flag.Kind where
  /-- A yes or no, by default yes. -/
  | switch (set : Bool → Options)
  /-- A number. -/
  | number (set : Int → Options)
  /-- Any text. -/
  | text (set : Text → Options)

namespace Flag

/-- The name of a flag. -/
def name : Flag → String
  | verbose => "verbose"
  | language => "lang"
  | help => "help"
  | output => "output"
  | labels => "labels"
  | binary => "binary"
  | data => "data"
  | dataStart => "data-start"
  | dataSize => "data-size"
  | stackLimit => "stack-limit"
  | window => "window"
  | trace => "trace"
  | budget => "max-cycles"
  | dump => "dump"
  | json => "json"

/-- The letter of a flag that has one. -/
def letter? : Flag → Option Char
  | verbose => some 'v'
  | help => some 'h'
  | output => some 'o'
  | binary => some 'b'
  | _ => none

/-- The kind of a flag, and what it sets. -/
def kind (o : Options) : Flag → Kind
  | verbose => .switch fun b => { o with verbose := b }
  | language => .text fun t => { o with language := t }
  | help => .switch fun b => { o with help := b }
  | output => .text fun t => { o with output := t }
  | labels => .switch fun b => { o with labels := b }
  | binary => .switch fun b => { o with binary := b }
  | data => .text fun t => { o with data := t }
  | dataStart => .number fun n => { o with dataStart := n }
  | dataSize => .number fun n => { o with config := { o.config with dataSize := n } }
  | stackLimit => .number fun n => { o with config := { o.config with stackLimit := n } }
  | window => .number fun n => { o with config := { o.config with dataWindow := n } }
  | trace => .number fun n => { o with config := { o.config with traceDepth := n } }
  | budget => .number fun n => { o with budget := n }
  | dump => .switch fun b => { o with dump := b }
  | json => .switch fun b => { o with json := b }

/-- Whether a flag needs no value. -/
def isSwitch (f : Flag) : Bool :=
  match f.kind {} with
  | .switch _ => true
  | _ => false

/-- A flag as messages show it. -/
def display (f : Flag) : String :=
  match f.letter? with
  | some l => "-" ++ String.ofList [l] ++ ", --" ++ f.name
  | none => "--" ++ f.name

/-- The truth values as they may be written. -/
def truth? (value : Text) : Option Bool :=
  if ["1", "t", "T", "true", "TRUE", "True"].any (Text.ofString · = value) then some true
  else if ["0", "f", "F", "false", "FALSE", "False"].any (Text.ofString · = value) then some false
  else none

/-- The options with a flag set to a value, or why the value is refused. -/
def set (f : Flag) (o : Options) (value : Text) : Except String Options :=
  match f.kind o with
  | .text set => .ok (set value)
  | .switch set =>
    match truth? value with
    | some b => .ok (set b)
    | none => .error ("strconv.ParseBool: parsing " ++ Quoted.text value ++ ": invalid syntax")
  | .number set =>
    match Literal.marked 64 value with
    | .ok n => .ok (set n)
    | .error refusal => .error (DataList.refusalMessage value refusal)

/-- The flag with a name, among some flags. -/
def ofName? (flags : List Flag) (name : Text) : Option Flag :=
  flags.find? fun f => Text.ofString f.name = name

/-- The flag with a letter, among some flags. -/
def ofLetter? (flags : List Flag) (letter : Glyph) : Option Flag :=
  flags.find? fun f => f.letter?.map Glyph.scalar = some letter

/-- The flags that every command knows, help apart. -/
def shared : List Flag :=
  [verbose, language]

/-- The flags that size and seed a machine. -/
def machine : List Flag :=
  [binary, data, dataStart, dataSize, stackLimit, window, trace]

end Flag

/-! ### Commands -/

/-- A command of the program. -/
inductive Verb where
  /-- Assembles a source text. -/
  | asm
  /-- Shows an image as instructions. -/
  | disasm
  /-- Runs a program. -/
  | run
  /-- Steps through a program. -/
  | debug
  /-- Lists the instruction set. -/
  | opcodes
  deriving DecidableEq

namespace Verb

/-- All commands. -/
def all : List Verb :=
  [asm, disasm, run, debug, opcodes]

/-- The name of a command. -/
def name : Verb → String
  | asm => "asm"
  | disasm => "disasm"
  | run => "run"
  | debug => "debug"
  | opcodes => "opcodes"

/-- The command with a name. -/
def ofName? (name : Text) : Option Verb :=
  all.find? fun v => Text.ofString v.name = name

/-- The flags of a command that others need not have. -/
def ownFlags : Verb → List Flag
  | asm => [.output, .labels]
  | disasm => []
  | run => Flag.machine ++ [.budget, .dump, .json]
  | debug => Flag.machine ++ [.budget]
  | opcodes => []

/-- The flags that a command knows. -/
def flags (v : Verb) : List Flag :=
  v.ownFlags ++ Flag.shared ++ [.help]

/-- Whether a command works on a file. -/
def takesFile (v : Verb) : Bool :=
  v ≠ opcodes

/-- What a command does. -/
def summary : Verb → String
  | asm => "Assemble a program."
  | disasm => "Disassemble an instruction image."
  | run => "Run a program."
  | debug => "Step through a program."
  | opcodes => "List the instruction set."

end Verb

/-- The name of the program. -/
def programName : String := "stackvm"

/-- What the program does. -/
def programSummary : String := "A stack machine assembler and emulator."

end CommandLine

end StackMachine
