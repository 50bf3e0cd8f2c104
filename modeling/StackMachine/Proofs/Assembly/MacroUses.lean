import Mathlib.Tactic.MkIffOfInductiveProp
import StackMachine.Proofs.Assembly.LineNumbers

/-!
# Source texts with one macro

A source text defines a macro, whose body consists of plain instructions, and calls it on a
later line. This module says what such a text looks like line by line, and what its lines are
once the call is replaced by the body. Up to the call both are read in the same way, and then
the macro stands in the tables, alone and with the lines of its body.

## Main definitions

* `Assembly.BodyLine`: a mnemonic and possibly an operand.
* `Assembly.MacroUse`: a source text with a macro and a call of it, and the lines that can stand
  for the call.
* `Assembly.MacroUse.Admissible`: what is asked of names and words.
* `Assembly.MacroUse.Ready`: how a reader stands at the call.

## Main results

* `Assembly.MacroUse.readAll_definition`: reading the definition adds the macro only.
* `Assembly.MacroUse.ready_before`: how a reader stands that has come to the call.
-/

namespace StackMachine

namespace Assembly

/-! ### Macro bodies of instructions -/

/-- A line of a macro body: a mnemonic, and possibly one operand. -/
structure BodyLine where
  mnemonic : Text
  operand : Option Text := none

namespace BodyLine

/-- The words of a line. -/
def words (l : BodyLine) : List Text :=
  l.mnemonic :: l.operand.toList

/-- A line with arguments in the place of parameters. -/
def inlined (bindings : List (Text × Text)) (l : BodyLine) : BodyLine :=
  { l with operand := l.operand.map fun word => (Dictionary.findIn? word bindings).getD word }

end BodyLine

/-- No directive is a valid mnemonic. -/
theorem ne_directive_of_valid {mnemonic : Text}
    (valid : (Opcode.ofMnemonic? mnemonic).isSome = true) :
    ∀ directive ∈ [".equ", ".macro", ".endm"], mnemonic ≠ Text.ofString directive := by
  rintro directive member rfl
  have none : ∀ d ∈ [".equ", ".macro", ".endm"], Opcode.ofMnemonic? (Text.ofString d) = none := by
    decide
  rw [none directive member] at valid
  cases valid

/-- A source text, line by line, with the definition of a macro and a call of it behind, and the
lines that stand for the call once it is inlined. -/
structure MacroUse where
  /-- The name of the macro. -/
  name : Text
  /-- Its parameters. -/
  params : List Text
  /-- The instructions of its body. -/
  body : List BodyLine
  /-- The arguments of the call. -/
  arguments : List Text
  /-- The lines before the definition. -/
  front : List Text
  /-- The line that begins the definition. -/
  beginning : Text
  /-- The lines of the body. -/
  bodyLines : List Text
  /-- The line that ends the definition. -/
  ending : Text
  /-- The lines between the definition and the call. -/
  middle : List Text
  /-- The line of the call. -/
  call : Text
  /-- The lines that stand for the call once it is inlined. -/
  inlinedLines : List Text
  /-- The lines behind the call. -/
  back : List Text
  distinct : params.Nodup
  arity : arguments.length = params.length
  begins : sourceWords beginning = Text.ofString ".macro" :: name :: params
  holds : bodyLines.map sourceWords = body.map BodyLine.words
  ends : (sourceWords ending).head? = some (Text.ofString ".endm")
  calls : sourceWords call = name :: arguments
  inlines : inlinedLines.map sourceWords =
    body.map fun l => (l.inlined (params.zip arguments)).words

namespace MacroUse

variable (u : MacroUse)

/-- The lines before the call. -/
def before : List Text :=
  u.front ++ (u.beginning :: (u.bodyLines ++ [u.ending]) ++ u.middle)

/-- The lines of the source text with the call. -/
def lines : List Text :=
  u.before ++ (u.call :: u.back)

/-- The lines of the source text with the body in the place of the call. -/
def linesInlined : List Text :=
  u.before ++ (u.inlinedLines ++ u.back)

variable [Interpreter]

/-- The equates that hold at the call. -/
def equates : Dictionary Text :=
  (reading u.before).1.state.equates

/-- What is asked of the names and words: the macro is no directive and no equate, it is the only
one, and its body consists of valid instructions whose mnemonics nothing replaces. -/
@[mk_iff]
structure Admissible : Prop where
  /-- The name is no directive. -/
  noDirective : ∀ directive ∈ [".equ", ".macro", ".endm"], u.name ≠ Text.ofString directive
  /-- No equate stands for the name. -/
  noEquate : u.equates.find? u.name = none
  /-- No other line defines a macro. -/
  onlyMacro : ∀ raw ∈ u.front ++ u.middle ++ u.back, definesMacro raw = false
  /-- The mnemonics are those of operations. -/
  valid : ∀ l ∈ u.body, (Opcode.ofMnemonic? l.mnemonic).isSome = true
  /-- They are no parameters, no equates and not the macro. -/
  unbound : ∀ l ∈ u.body, l.mnemonic ∉ u.params ∧ u.equates.find? l.mnemonic = none ∧
    l.mnemonic ≠ u.name
  /-- No word of the body and no argument has a colon. -/
  colonless : ∀ word ∈ u.body.flatMap BodyLine.words ++ u.arguments, .scalar ':' ∉ word

instance : Decidable u.Admissible :=
  decidable_of_iff _ u.admissible_iff.symm

/-! ### Before the call -/

variable {u}

omit [Interpreter] in
/-- A line that is written for the body is written for one of its lines. -/
theorem exists_mem_body {raws : List Text} {f : BodyLine → List Text}
    (written : raws.map sourceWords = u.body.map f) {raw : Text} (member : raw ∈ raws) :
    ∃ l ∈ u.body, sourceWords raw = f l := by
  have words : sourceWords raw ∈ raws.map sourceWords := List.mem_map_of_mem member
  rw [written] at words
  obtain ⟨l, inside, same⟩ := List.mem_map.mp words
  exact ⟨l, inside, same.symm⟩

/-- A table of macros that holds the macro alone, with the lines of its body that were seen. -/
structure Defines (u : MacroUse) (macros : Dictionary MacroDef) (seen : List Text) : Prop where
  found : ∃ lineNo, macros.find? u.name = some ⟨lineNo, u.params, seen⟩
  alone : ∀ other, other ≠ u.name → macros.find? other = none

omit [Interpreter] in
theorem Defines.set {macros : Dictionary MacroDef}
    (alone : ∀ other, other ≠ u.name → macros.find? other = none) (lineNo : Nat)
    (seen : List Text) : u.Defines (macros.set u.name ⟨lineNo, u.params, seen⟩) seen where
  found := ⟨lineNo, Dictionary.find?_set_self _ _ _⟩
  alone := fun other ne => by rw [Dictionary.find?_set_of_ne _ _ (Ne.symm ne), alone other ne]

omit [Interpreter] in
theorem Defines.plain {macros : Dictionary MacroDef} {seen : List Text}
    (defines : u.Defines macros seen) (plain : ∀ line ∈ seen, Plain line) :
    ∀ name definition, macros.find? name = some definition →
      ∀ line ∈ definition.body, Plain line := by
  intro name definition entry
  by_cases same : name = u.name
  · obtain ⟨lineNo, found⟩ := defines.found
    rw [same, found] at entry
    cases entry
    exact plain
  · rw [defines.alone name same] at entry
    cases entry

/-- A reader in the definition of the macro, which began with the tables `s`. -/
structure Collects (u : MacroUse) (s : State) (r : Reader) (seen : List Text) : Prop where
  isOpen : r.openMacro = some u.name
  kept : r.state = { s with macros := r.state.macros }
  defines : u.Defines r.state.macros seen

theorem collects_beginning {r : Reader} (closed : r.openMacro = none)
    (empty : r.state.macros = {}) :
    ∃ q, r.read u.beginning = (q, none) ∧ u.Collects r.state q [] := by
  have opened : (r.advance (stripComment u.beginning)).openMacro = none := closed
  have fresh : (r.advance (stripComment u.beginning)).state.macros.contains u.name = false := by
    rw [Reader.advance, empty]
    rfl
  have begins : (sourceWords u.beginning).head? = some (Text.ofString ".macro") := by
    rw [u.begins, List.head?_cons]
  have words : (stripComment u.beginning).fields = Text.ofString ".macro" :: u.name :: u.params :=
    u.begins
  rw [Reader.read_eq, if_pos begins, words]
  simp only [Reader.beginMacro, opened, fresh, Bool.false_eq_true, if_false]
  refine ⟨_, rfl, rfl, rfl, .set (fun other _ => ?_) _ []⟩
  rw [Reader.advance, empty]
  rfl

theorem Collects.read {s : State} {r : Reader} {seen : List Text} (collects : u.Collects s r seen)
    {raw : Text} (undirected : Undirected raw) :
    ∃ q, r.read raw = (q, none) ∧ u.Collects s q (seen ++ [stripComment raw]) := by
  obtain ⟨lineNo, found⟩ := collects.defines.found
  have entry : (r.advance (stripComment raw)).state.macros.find? u.name =
      some ⟨lineNo, u.params, seen⟩ := found
  rw [Reader.read_eq, if_neg undirected.begins, if_neg undirected.ends, collects.isOpen]
  simp only [Reader.extendMacro, entry]
  refine ⟨_, rfl, collects.isOpen, ?_, .set collects.defines.alone lineNo _⟩
  rw [Reader.advance, collects.kept]

theorem Collects.readAll {s : State} {r : Reader} {seen : List Text}
    (collects : u.Collects s r seen) {raws : List Text} (h : ∀ raw ∈ raws, Undirected raw) :
    ∃ q, r.readAll raws = (q, none) ∧ u.Collects s q (seen ++ raws.map stripComment) := by
  induction raws generalizing r seen with
  | nil => exact ⟨r, rfl, by simpa using collects⟩
  | cons raw rest ih =>
    obtain ⟨next, read, longer⟩ := collects.read (h raw List.mem_cons_self)
    obtain ⟨q, readRest, collected⟩ := ih longer fun k hk => h k (List.mem_cons_of_mem raw hk)
    refine ⟨q, (Reader.readAll_cons_of_read read rest).trans readRest, ?_⟩
    simpa using collected

/-- Reading the definition adds the macro and changes nothing else. -/
theorem readAll_definition (admissible : u.Admissible) {r : Reader} (closed : r.openMacro = none)
    (empty : r.state.macros = {}) :
    ∃ q macros, r.readAll (u.beginning :: (u.bodyLines ++ [u.ending])) = (q, none) ∧
      q.openMacro = none ∧ q.state = { r.state with macros := macros } ∧
      u.Defines macros (u.bodyLines.map stripComment) := by
  have instructions : ∀ raw ∈ u.bodyLines, Undirected raw := by
    intro raw member
    obtain ⟨l, inside, words⟩ := exists_mem_body u.holds member
    exact undirected_of_words words (ne_directive_of_valid (admissible.valid l inside))
  obtain ⟨first, readFirst, begun⟩ := u.collects_beginning closed empty
  obtain ⟨last, readBody, collected⟩ := begun.readAll instructions
  have endsOther : (sourceWords u.ending).head? ≠ some (Text.ofString ".macro") := by
    rw [u.ends]
    decide
  have isOpen : (last.advance (stripComment u.ending)).openMacro = some u.name := collected.isOpen
  have readEnd : last.read u.ending =
      ({ last.advance (stripComment u.ending) with openMacro := none }, none) := by
    rw [Reader.read_eq, if_neg endsOther, if_pos u.ends, Reader.endMacro, isOpen]
  refine ⟨{ last.advance (stripComment u.ending) with openMacro := none }, last.state.macros, ?_,
    rfl, collected.kept, by simpa using collected.defines⟩
  rw [Reader.readAll_cons_of_read readFirst, Reader.readAll_append_of_readAll readBody,
    Reader.readAll_cons_of_read readEnd, Reader.readAll]

/-- How a reader stands at the call: the macro is the only one, and the tables are plain. -/
structure Ready (u : MacroUse) (r : Reader) : Prop where
  closed : r.openMacro = none
  plain : r.state.HoldsPlain
  defines : u.Defines r.state.macros (u.bodyLines.map stripComment)

/-- Lines that are not written by the macro define none. -/
theorem Admissible.definesNone (admissible : u.Admissible) :
    (∀ raw ∈ u.front, definesMacro raw = false) ∧ (∀ raw ∈ u.middle, definesMacro raw = false) ∧
      ∀ raw ∈ u.back, definesMacro raw = false := by
  have only := admissible.onlyMacro
  simp only [List.forall_mem_append] at only
  exact ⟨only.1.1, only.1.2, only.2⟩

theorem ready_before (admissible : u.Admissible) (plain : ∀ raw ∈ u.before, Plain raw)
    (ended : (reading u.before).2 = none) : u.Ready (reading u.before).1 := by
  obtain ⟨noneFront, noneMiddle, -⟩ := admissible.definesNone
  simp only [before, List.forall_mem_append, List.forall_mem_cons] at plain
  obtain ⟨plainFront, ⟨-, plainBody, -⟩, plainMiddle⟩ := plain
  simp only [reading, before] at ended ⊢
  have closedFront := Reader.macros_readAll (r := Assembler.reader {}) rfl noneFront
  cases front : (Assembler.reader {}).readAll u.front with
  | mk r problem =>
    cases problem with
    | some problem =>
      rw [Reader.readAll_append, front] at ended
      cases ended
    | none =>
      have holds := Reader.holdsPlain_readAll rfl holdsPlain_reader plainFront noneFront
        (by rw [front])
      rw [front] at closedFront holds
      obtain ⟨q, macros, definition, closed, state, defines⟩ :=
        readAll_definition admissible closedFront.1 closedFront.2
      rw [Reader.readAll_append_of_readAll front,
        Reader.readAll_append_of_readAll definition] at ended ⊢
      have seen : ∀ line ∈ u.bodyLines.map stripComment, Plain line :=
        List.forall_mem_map.mpr fun raw member => (plainBody raw member).stripComment
      have holdsQ : q.state.HoldsPlain := by
        rw [state]
        exact ⟨holds.values, defines.plain seen⟩
      have kept := Reader.macros_readAll closed noneMiddle
      refine ⟨kept.1, Reader.holdsPlain_readAll closed holdsQ plainMiddle noneMiddle ended, ?_⟩
      rw [kept.2, state]
      exact defines

end MacroUse

end Assembly

end StackMachine
