import StackMachine.Assembly.Line
import StackMachine.Program.Basic

/-!
# Assembling a line

The tables of an assembler and what one source line does to them. A line may define
labels and then hold an equate definition, a macro call or an instruction. A macro call
assembles the lines of the macro body; while it does, the macro cannot be called again,
and afterwards the equates are what they were before.

## Main definitions

* `Assembly.State`: the tables.
* `Assembly.State.emit`: assembling the words of an instruction.
* `Assembly.State.defineLabels`: taking the labels off a line.
* `Assembly.assembleLine`: assembling a line.
-/

namespace StackMachine

namespace Assembly

/-- A macro: its parameters and its body. -/
structure MacroDef where
  /-- The number of the first line of the body. -/
  lineNo : Nat
  /-- The names of the parameters. -/
  params : List Text
  /-- The lines of the body. -/
  body : List Text := []
  deriving DecidableEq

/-- The tables of an assembler. -/
structure State where
  /-- The statements assembled so far. -/
  statements : Array Statement := #[]
  /-- The labels and their addresses, in the order of their definitions. -/
  labels : List (Text × Nat) := []
  /-- The equates. -/
  equates : Dictionary Text := {}
  /-- The macros. -/
  macros : Dictionary MacroDef := {}
  /-- The line of the last label. -/
  lonely : Nat := 0
  deriving DecidableEq

/-- What assembling leaves behind: the tables, and a result or a problem. -/
abbrev Outcome (α : Type) := State × Except Problem α

/-- The equate that holds the number of the current line. -/
def lineName : Text := "LINENO"

namespace State

/-- The address that the next statement gets. -/
def address (s : State) : Nat :=
  s.statements.size

/-- Whether a label is defined. -/
def hasLabel (s : State) (name : Text) : Bool :=
  s.labels.any (·.1 = name)

/-- The address of a label. -/
def labelAddress? (s : State) (name : Text) : Option Nat :=
  (s.labels.find? (·.1 = name)).map (·.2)

/-! ### Instructions -/

/-- Fails at a word. -/
def refuse {α : Type} (s : State) (token : Text) (cause : Cause) : Outcome α :=
  (s, .error (.plain token cause))

/-- The statement of an operation and an operand. -/
def statement (s : State) (lineNo : Nat) (words : List Text) (op : Opcode) :
    Option Operand → Statement
  | none =>
    { line := lineNo, ip := s.address, words := words, instr := .ofOpcode op 0 }
  | some (.value n) =>
    { line := lineNo, ip := s.address, words := words, instr := .ofOpcode op (Int32.ofInt n) }
  | some (.label name) =>
    { line := lineNo, ip := s.address, words := words, instr := .ofOpcode op 0,
      link := some name }

/-- The tables with one more statement. -/
def append (s : State) (statement : Statement) : State :=
  { s with statements := s.statements.push statement }

/-- Assembles the words of an instruction; no words assemble to nothing. -/
def emit (s : State) (lineNo : Nat) (words : List Text) : Outcome Unit :=
  match words with
  | [] => (s, .ok ())
  | name :: operands =>
    match Opcode.ofMnemonic? name with
    | none => s.refuse name .opcodeInvalid
    | some op =>
      if op.takesOperand then
        match operands with
        | [] => s.refuse name .valueMissing
        | [word] =>
          match operandOf s.equates word with
          | .error cause => s.refuse word cause
          | .ok operand => (s.append (s.statement lineNo words op (some operand)), .ok ())
        | _ :: extra :: _ => s.refuse extra .extraArguments
      else
        match operands with
        | [] => (s.append (s.statement lineNo words op none), .ok ())
        | extra :: _ => s.refuse extra .extraArguments

/-! ### Labels and equates -/

/-- The tables with one more label, at the address of the next statement. -/
def addLabel (s : State) (lineNo : Nat) (name : Text) : State :=
  { s with labels := s.labels ++ [(name, s.address)], lonely := lineNo }

/-- Takes at most `fuel` labels off the front of a line and defines them. -/
def defineLabelsWithin (lineNo : Nat) : Nat → State → Text → Outcome Text
  | 0, s, line => (s, .ok line)
  | fuel + 1, s, line =>
    match takeLabel? line with
    | none => (s, .ok line)
    | some (name, rest) =>
      if !isIdentifier name then s.refuse name .labelInvalid
      else if s.hasLabel name then s.refuse name .labelDuplicate
      else defineLabelsWithin lineNo fuel (s.addLabel lineNo name) rest

/-- Takes all labels off the front of a line and defines them. -/
def defineLabels (s : State) (lineNo : Nat) (line : Text) : Outcome Text :=
  defineLabelsWithin lineNo line.length s line

/-- Defines an equate. -/
def defineEquate (s : State) (words : List Text) : Outcome Unit :=
  match words with
  | [_, name, value] =>
    if s.equates.contains name then s.refuse name .equateDuplicate
    else ({ s with equates := s.equates.set name value }, .ok ())
  | _ => s.refuse [] .equateSyntax

/-- The tables with the number of the current line as an equate. -/
def atLine (s : State) (lineNo : Nat) : State :=
  { s with equates := s.equates.set lineName (Numeral.decimal lineNo) }

end State

/-! ### Macros -/

/-- A call of a macro. -/
structure MacroCall where
  /-- The line of the call. -/
  lineNo : Nat
  /-- The name of the macro. -/
  name : Text
  /-- Its definition. -/
  definition : MacroDef
  /-- The arguments. -/
  arguments : List Text

/-- How a line is assembled, given its number. -/
abbrev LineAssembler := Nat → Text → State → Outcome Unit

/-- Where a call is made: the macro that it expands and the line that it stands on. -/
structure CallSite where
  name : Text
  lineNo : Nat
  deriving DecidableEq

/-- Where a call is made. -/
def MacroCall.site (c : MacroCall) : CallSite :=
  ⟨c.name, c.lineNo⟩

/-- The mark of the local labels of the calls of a macro on a line. -/
def CallSite.mark (site : CallSite) : Text :=
  site.name ++ "_" ++ Text.ofString (Numeral.decimal site.lineNo) ++ "_"

/-- The mark that makes the local labels of a call differ from those of other calls. -/
def MacroCall.mark (c : MacroCall) : Text :=
  c.site.mark

/-- Assembles the lines of a macro body, whose first is number `lineNo`. -/
def assembleBody (assemble : LineAssembler) (c : MacroCall) : Nat → List Text → State → Outcome Unit
  | _, [], s => (s, .ok ())
  | lineNo, line :: rest, s =>
    let line := localise c.mark line
    match assemble lineNo line s with
    | (s, .ok ()) => assembleBody assemble c (lineNo + 1) rest s
    | (s, .error problem) => (s, .error (.expansion c.name lineNo line problem))

/-- Assembles the body of a macro with its parameters as equates, and then takes back every
equate that was set on the way. -/
def expandBody (assemble : LineAssembler) (c : MacroCall) (s : State) : Outcome Unit :=
  let equates := s.equates.setAll (c.definition.params.zip c.arguments)
  let (after, result) :=
    assembleBody assemble c c.definition.lineNo c.definition.body { s with equates := equates }
  ({ after with equates := s.equates }, result)

/-- Expands a call, unless its arguments are too many or too few or the macro is among the ones
being expanded. -/
def expandCall (active : List Text) (assemble : LineAssembler) (c : MacroCall) (s : State) :
    Outcome Unit :=
  if c.arguments.length ≠ c.definition.params.length then s.refuse c.name .macroSyntax
  else if active.any (· = c.name) then s.refuse c.name .macroRecursion
  else expandBody assemble c s

/-! ### Lines -/

/-- Assembles the words of a line behind its labels. -/
def assembleWords (expand : MacroCall → State → Outcome Unit) (lineNo : Nat) (words : List Text)
    (s : State) : Outcome Unit :=
  if words.head? = some (Text.ofString ".equ") then s.defineEquate words
  else
    let words := replaceEquates s.equates words
    match words with
    | [] => (s, .ok ())
    | name :: arguments =>
      match s.macros.find? name with
      | some definition => expand ⟨lineNo, name, definition, arguments⟩ s
      | none => s.emit lineNo words

variable [Interpreter]

/-- Assembles a line, with macro calls expanded by `expand`. -/
def assembleLineWith (expand : MacroCall → State → Outcome Unit) : LineAssembler :=
  fun lineNo line s =>
    let s := s.atLine lineNo
    match replaceExpressions s.equates (replaceCharacters line) with
    | .error problem => (s, .error problem)
    | .ok line =>
      match s.defineLabels lineNo line with
      | (s, .error problem) => (s, .error problem)
      | (s, .ok line) => assembleWords expand lineNo line.fields s

/-- Assembles a line while the macros `active` are being expanded and at most `depth` others can
be. -/
def assembleLine : Nat → List Text → LineAssembler
  | 0, active =>
    assembleLineWith fun c s =>
      expandCall active (fun _ _ s => s.refuse c.name .macroRecursion) c s
  | depth + 1, active =>
    assembleLineWith fun c s => expandCall active (assembleLine depth (c.name :: active)) c s

end Assembly

end StackMachine
