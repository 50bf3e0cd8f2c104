import StackMachine.Assembly.Expression.Eval
import StackMachine.CommandLine.Arguments
import StackMachine.CommandLine.Files
import StackMachine.Debugger
import StackMachine.Image
import StackMachine.Program.Listing

/-!
# What a command does

A command reads its input, does its work and leaves an exit code, output, a log, and
perhaps a file. The exit code says how it went: 0 if all is well, 1 for a bad command
line, 2 for bad initial data or a file that cannot be opened, 3 for a bad program or
image, and 5 if the machine stopped with a fault.

## Main definitions

* `CommandLine.Outcome`: what a command leaves.
* `CommandLine.Surroundings`: what a command finds.
* `CommandLine.execute`: the outcome of a command line.
-/

namespace StackMachine

namespace CommandLine

/-- What a command finds. -/
structure Surroundings where
  /-- The files. -/
  files : Files := {}
  /-- The standard input. -/
  stdin : List UInt8 := []
  deriving DecidableEq

/-- What a command leaves. -/
structure Outcome where
  /-- The exit code. -/
  exit : Nat := 0
  /-- The standard output. -/
  stdout : List UInt8 := []
  /-- The standard error output. -/
  stderr : Text := []
  /-- The path and the contents of a file to be written. -/
  output : Option (Text × List UInt8) := none
  deriving DecidableEq

/-! ### Logs and failures -/

/-- Why a command ends early. -/
structure Failure where
  /-- The exit code. -/
  exit : Nat
  /-- What is logged. -/
  message : Text
  deriving DecidableEq

/-- The lines of some log entries. -/
def logText (entries : List Journal.Entry) : Text :=
  entries.flatMap fun e => Text.ofString e.line

/-- Entries that are reported only in detail, and made only if they are. -/
def detail (o : Options) (entries : Unit → List Journal.Entry) : List Journal.Entry :=
  if o.verbose then entries () else []

/-- An outcome with earlier log entries in front. -/
def Outcome.logged (outcome : Outcome) (entries : List Journal.Entry) : Outcome :=
  { outcome with stderr := logText entries ++ outcome.stderr }

/-- The outcome of a failure. -/
def Failure.outcome (f : Failure) : Outcome where
  exit := f.exit
  stderr := logText [⟨.error, f.message, []⟩]

/-- A failure to open a file. -/
def cannotOpen (path : Text) : Failure :=
  ⟨2, "open " ++ path ++ ": no such file or directory"⟩

/-- A failure because of the contents of a file. -/
def badFile (path : Text) (message : Text) : Failure :=
  ⟨3, path ++ ": " ++ message⟩

/-- The path that stands for the standard input or output. -/
def standardPath : Text := "-"

/-- The contents of the input. -/
def Surroundings.input (s : Surroundings) (path : Text) : Except Failure (List UInt8) :=
  if path = standardPath then .ok s.stdin
  else
    match s.files.read? path with
    | some bytes => .ok bytes
    | none => .error (cannotOpen path)

/-- The standard input that is left when the input has been read. -/
def Surroundings.rest (s : Surroundings) (path : Text) : List UInt8 :=
  if path = standardPath then [] else s.stdin

/-- The words of an image file. -/
def readImage (path : Text) (bytes : List UInt8) : Except Failure (List UInt32) :=
  match Image.read? bytes with
  | some words => .ok words
  | none => .error (badFile path Image.cutShort)

/-! ### Assembling and disassembling -/

-- here the interpreter is chosen
attribute [instance] Assembly.Expression.interpreter

/-- The assembler of the command line knows a machine of default sizes. -/
def assembler : Assembler :=
  { predefines := Session.equates Config.default }

/-- What is left of an assembled program: its listing, or its image. -/
def programOutcome (o : Options) (program : Program) : Outcome :=
  let table := if o.labels then (Report.labels program).text.line else []
  let image := Image.write program.image.toList
  if o.output.isEmpty then { stdout := (program.listing ++ table).bytes }
  else if o.output = standardPath then { stdout := image ++ table.bytes }
  else { stdout := table.bytes, output := some (o.output, image) }

/-- The outcome of assembling a file. -/
def assembleFile (s : Surroundings) (o : Options) (path : Text) : Outcome :=
  match s.input path with
  | .error f => f.outcome
  | .ok bytes =>
    let source := Text.ofBytes bytes
    let outcome :=
      match (assembler.parse source).2 with
      | .error e => (badFile path e.message).outcome
      | .ok program => programOutcome o program
    outcome.logged (detail o fun _ => assembler.parseJournal source)

/-- The outcome of disassembling a file. -/
def disassembleFile (s : Surroundings) (path : Text) : Outcome :=
  match s.input path >>= readImage path with
  | .error f => f.outcome
  | .ok words => { stdout := (Text.ofString (Instr.disassemble words)).bytes }

/-! ### Running and debugging -/

/-- A session with the sizes and the initial data that are asked for. -/
def emptySession (o : Options) : Except Failure Session :=
  match DataList.parse o.data with
  | .error e => .error ⟨2, Text.ofString ("--data: " ++ e.message)⟩
  | .ok data =>
    .ok { Session.new o.config with data := data.getD [], dataStart := o.dataStart }

/-- A session with a program in it, and what loading it reports in detail. -/
def loadedSession (o : Options) (path : Text) (bytes : List UInt8) (session : Session) :
    List Journal.Entry × Except Failure Session :=
  if o.binary then
    match readImage path bytes with
    | .error f => ([], .error f)
    | .ok words =>
      (detail o fun _ => session.loadWordsJournal (some words.toArray),
        .ok (session.loadWords (some words.toArray)))
  else
    let source := Text.ofBytes bytes
    (detail o fun _ => session.compileJournal source,
      match session.compile source with
      | .error e => .error (badFile path e.message)
      | .ok loaded => .ok loaded)

/-- The outcome of some work on a session with a program in it. -/
def withProgram (s : Surroundings) (o : Options) (path : Text) (work : Session → Outcome) :
    Outcome :=
  let prepared := do
    let session ← emptySession o
    let bytes ← s.input path
    return loadedSession o path bytes session
  match prepared with
  | .error f => f.outcome
  | .ok (journal, .error f) => f.outcome.logged journal
  | .ok (journal, .ok session) => (work session).logged journal

/-- What is logged at the end of a run: a fault, or that the machine has not halted. -/
def runVerdict (path : Text) (m : Machine) (error : Option RuntimeError) : Outcome :=
  match error with
  | some e => Failure.outcome ⟨5, path ++ ": " ++ e.message⟩
  | none =>
    if m.halted then {}
    else
      let message :=
        path ++ Text.ofString (": not halted after " ++ Numeral.decimal m.cycles ++ " cycles")
      { stderr := logText [⟨.warning, message, []⟩] }

/-- The outcome of running a program. -/
def runFile (s : Surroundings) (o : Options) (path : Text) : Outcome :=
  withProgram s o path fun session =>
    let (last, error) := session.run o.budget
    let snapshot := last.machine.snapshot
    let printed := if o.json then Report.documentText snapshot else Report.snapshot snapshot o.dump
    { runVerdict path last.machine error with stdout := printed.bytes }.logged
      (detail o fun _ => session.runJournal o.budget)

/-- The outcome of debugging a program. -/
def debugFile (s : Surroundings) (o : Options) (path : Text) : Outcome :=
  withProgram s o path fun session =>
    let debugger : Debugger := { session := session, budget := o.budget }
    let input := Text.ofBytes (s.rest path)
    let outcome : Outcome := { stdout := (debugger.interact [] input).2.bytes }
    outcome.logged (detail o fun _ => debugger.interactJournal input)

/-! ### Command lines -/

/-- What is reported before a command starts: the language, if one is asked for. -/
def languageJournal (o : Options) : List Journal.Entry :=
  if o.language.isEmpty then []
  else [Journal.debug (Text.ofString ("stackvm: language " ++ Message.languageTag)) []]

/-- The outcome of a command. -/
def commandOutcome (s : Surroundings) (verb : Verb) (o : Options) (path : Text) : Outcome :=
  let outcome :=
    match verb with
    | .asm => assembleFile s o path
    | .disasm => disassembleFile s path
    | .run => runFile s o path
    | .debug => debugFile s o path
    | .opcodes => { stdout := Report.opcodes.text.line.bytes }
  outcome.logged (detail o fun _ => languageJournal o)

/-- What is printed about a bad command line. -/
def usageText (e : UsageError) : Text :=
  let report := ("Error: " ++ e.message).line
  match e with
  | .unknownCommand _ =>
    report ++ Text.line (Text.ofString ("Run '" ++ programName ++ " --help' for usage."))
  | _ => report

/-- The outcome of a command line, as if every file could be written. -/
def execute (s : Surroundings) (args : List Text) : Outcome :=
  match Invocation.ofArgs args with
  | .refused e => { exit := 1, stderr := usageText e }
  | .help verb =>
    { stdout := (Text.ofString ((verb.map Verb.summary).getD programSummary)).line.bytes }
  | .command verb o arguments => commandOutcome s verb o (arguments.headD [])

/-- The outcome in the place of one whose file cannot be written. -/
def Outcome.unwritten (outcome : Outcome) (path : Text) : Outcome :=
  let failed := (cannotOpen path).outcome
  { failed with stderr := outcome.stderr ++ failed.stderr }

/-- The outcome of a command line, and the files afterwards. -/
def run (s : Surroundings) (args : List Text) : Outcome × Files :=
  let outcome := execute s args
  match outcome.output with
  | none => (outcome, s.files)
  | some (path, contents) =>
    if s.files.canCreate path then (outcome, s.files.write path contents)
    else (outcome.unwritten path, s.files)

/-- The path of the file that a command line reads, if it reads one. -/
def inputPath? (args : List Text) : Option Text :=
  match Invocation.ofArgs args with
  | .command _ _ [path] => if path = standardPath then none else some path
  | _ => none

/-- Whether a command line reads the standard input. -/
def readsStandardInput (args : List Text) : Bool :=
  match Invocation.ofArgs args with
  | .command verb _ arguments => verb = .debug || arguments.contains standardPath
  | _ => false

end CommandLine

end StackMachine
