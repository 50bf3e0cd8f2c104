import StackMachine.Assembly.State
import StackMachine.Journal
import StackMachine.Text.Lines

/-!
# Assembling a source text

A source text is read line by line. Lines between `.macro` and `.endm` are kept as the
body of a macro, and every other line is assembled. The first problem ends the reading.
Once all lines are read, a label must not stand behind the last instruction, and every
label that an operand stands for gets its address.

## Main definitions

* `Assembly.State.linkAll`: statements with the addresses of their labels.
* `Assembly.Reader`: how far a source text has been read.
* `Assembly.Reader.finish`, `Assembly.Reader.settled`: the program of a source text that has been
  read, and the tables that are left.
* `Assembler`, `Assembler.parse`: an assembler with equates of its own, and its work.
* `assemble`: assembling with the standard equates only.
-/

namespace StackMachine

namespace Assembly

namespace State

/-! ### Linking -/

/-- The first label that stands behind the last instruction. -/
def lonelyLabel? (s : State) : Option Text :=
  (s.labels.find? (·.2 = s.address)).map (·.1)

/-- A statement with the address of its label as operand; a label without an address is an error
on the line of the statement. -/
def link (s : State) (statement : Statement) : Except SyntaxError Statement :=
  match statement.link with
  | none => .ok statement
  | some label =>
    match s.labelAddress? label with
    | none =>
      .error ⟨statement.line.toNat, Text.join " " statement.words,
        .plain label (.labelMissing label)⟩
    | some address =>
      .ok { statement with instr := { statement.instr with operand := Int32.ofInt address } }

/-- The statements with the addresses of their labels as operands. -/
def linkAll (s : State) : List Statement → Except SyntaxError (List Statement)
  | [] => .ok []
  | statement :: rest => do
    let linked ← s.link statement
    let others ← s.linkAll rest
    return linked :: others

/-- The statements as linking leaves them behind: up to the first whose label has no address, they
have the addresses of their labels as operands. -/
def linkFront (s : State) : List Statement → List Statement
  | [] => []
  | statement :: rest =>
    match s.link statement with
    | .ok linked => linked :: s.linkFront rest
    | .error _ => statement :: rest

end State

/-- How far a source text has been read. -/
structure Reader where
  /-- The tables. -/
  state : State
  /-- The macro whose definition has not ended. -/
  openMacro : Option Text := none
  /-- The number of the last line read. -/
  lineNo : Nat := 0
  /-- The last line read, without its comment. -/
  line : Text := []
  deriving DecidableEq

namespace Reader

/-! ### Macro definitions -/

/-- Begins the definition of a macro, given the words of the line. -/
def beginMacro (r : Reader) (words : List Text) : Reader × Option Problem :=
  match r.openMacro, words with
  | some _, _ => (r, some (.plain [] .macroNesting))
  | none, _ :: name :: params =>
    if r.state.macros.contains name then (r, some (.plain name .macroDuplicate))
    else
      let definition : MacroDef := { lineNo := r.lineNo + 1, params := params }
      ({ r with
          state := { r.state with macros := r.state.macros.set name definition }
          openMacro := some name }, none)
  | none, _ => (r, some (.plain [] .macroSyntax))

/-- Ends the definition of a macro. -/
def endMacro (r : Reader) : Reader × Option Problem :=
  match r.openMacro with
  | none => (r, some (.plain [] .macroStrayEnd))
  | some _ => ({ r with openMacro := none }, none)

/-- Adds a line to the body of a macro. -/
def extendMacro (r : Reader) (name : Text) (line : Text) : Reader :=
  match r.state.macros.find? name with
  | none => r
  | some definition =>
    let extended := { definition with body := definition.body ++ [line] }
    { r with state := { r.state with macros := r.state.macros.set name extended } }

/-! ### Lines -/

variable [Interpreter]

/-- Assembles a line outside of all macro definitions. Macros can be expanded inside one another
as deep as there are macros. -/
def assembleCurrent (r : Reader) : Reader × Option Problem :=
  match assembleLine r.state.macros.entries.length [] r.lineNo r.line r.state with
  | (state, .ok ()) => ({ r with state := state }, none)
  | (state, .error problem) => ({ r with state := state }, some problem)

/-- Reads one more line. -/
def read (r : Reader) (raw : Text) : Reader × Option Problem :=
  let line := stripComment raw
  let r := { r with lineNo := r.lineNo + 1, line := line }
  let words := Text.fields line
  if words.head? = some (Text.ofString ".macro") then r.beginMacro words
  else if words.head? = some (Text.ofString ".endm") then r.endMacro
  else
    match r.openMacro with
    | some name => (r.extendMacro name line, none)
    | none => r.assembleCurrent

/-- Reads lines up to the first problem. -/
def readAll (r : Reader) : List Text → Reader × Option Problem
  | [] => (r, none)
  | raw :: rest =>
    match r.read raw with
    | (r, none) => r.readAll rest
    | (r, some problem) => (r, some problem)

/-! ### The end of a source text -/

/-- An error on the last line read. -/
def failure (r : Reader) (problem : Problem) : SyntaxError :=
  ⟨r.lineNo, r.line, problem⟩

/-- The program of a source text that has been read to its end, or to a line that is too long. -/
def finish (r : Reader) (overlong : Bool) : Except SyntaxError Program :=
  if overlong then .error (r.failure (.plain [] .lineTooLong))
  else if r.openMacro.isSome then .error (r.failure (.plain [] .macroOpen))
  else
    match r.state.lonelyLabel? with
    | some label => .error ⟨r.state.lonely, label ++ ":", .plain label .labelLonely⟩
    | none => do
      let statements ← r.state.linkAll r.state.statements.toList
      return {
        statements := statements.toArray
        labels := r.state.labels.map fun (name, address) => (name, (address : Int)) }

/-- The tables that the end of a source text leaves behind: the statements are linked, unless the
text is refused before. -/
def settled (r : Reader) (overlong : Bool) : State :=
  if overlong || r.openMacro.isSome || r.state.lonelyLabel?.isSome then r.state
  else { r.state with statements := (r.state.linkFront r.state.statements.toList).toArray }

end Reader

end Assembly

open Assembly

/-- An assembler: equates of its own, and the tables of the last source text. -/
structure Assembler where
  /-- Equates that hold in every source text. -/
  predefines : Dictionary Text := {}
  /-- The tables of the last source text. -/
  state : State := {}
  deriving DecidableEq

namespace Assembler

/-- The equates that every source text begins with. -/
def standardEquates : List (Text × Text) :=
  [(lineName, "0"), ("DATA_SIZE", "1024"), ("STACK_LIMIT", "256")]

/-- The assembler with one more equate of its own. -/
def predefine (a : Assembler) (name value : Text) : Assembler :=
  { a with predefines := a.predefines.set name value }

/-- The assembler with several equates of its own. -/
def predefineAll (a : Assembler) (pairs : List (Text × Text)) : Assembler :=
  { a with predefines := a.predefines.setAll pairs }

/-- The reader of a source text, before its first line. -/
def reader (a : Assembler) : Reader where
  state := { equates := (Dictionary.ofList standardEquates).setAll a.predefines.entries }

variable [Interpreter]

/-- Assembles a source text; the assembler keeps the tables. -/
def parse (a : Assembler) (source : Text) : Assembler × Except SyntaxError Program :=
  let lines := Lines.ofText source
  match a.reader.readAll lines.lines with
  | (r, none) => ({ a with state := r.settled lines.overlong }, r.finish lines.overlong)
  | (r, some problem) => ({ a with state := r.state }, .error (r.failure problem))

/-! ### Journal -/

/-- What a line reports: its text, and the labels that it defines. -/
def lineJournal (before after : Reader) (raw : Text) : List Journal.Entry :=
  Journal.debug
      (Text.ofString ("asm " ++ Numeral.decimal after.lineNo ++ ": ") ++ raw) []
    :: (after.state.labels.drop before.state.labels.length).map fun (name, address) =>
      Journal.debug
        ("asm: label " ++ name ++ Text.ofString (" = " ++ Numeral.decimal address)) []

/-- What the lines of a source text report, up to the first problem. -/
def readJournal (r : Reader) : List Text → List Journal.Entry
  | [] => []
  | raw :: rest =>
    match r.read raw with
    | (next, none) => lineJournal r next raw ++ readJournal next rest
    | (next, some _) => lineJournal r next raw

/-- What assembling a source text reports. -/
def parseJournal (a : Assembler) (source : Text) : List Journal.Entry :=
  readJournal a.reader (Lines.ofText source).lines

end Assembler

/-- Assembles a source text with the standard equates only. -/
def assemble [Interpreter] (source : Text) : Except SyntaxError Program :=
  (Assembler.parse {} source).2

end StackMachine
