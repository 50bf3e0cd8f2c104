import StackMachine.Proofs.Assembly.CoreLine
import StackMachine.Proofs.Assembly.Linking

/-!
# Reading the core language

What reading lines of the core language does to the tables. A line is taken exactly if
its labels are new and its literal is in range; its labels and its instruction then stand
behind those of the lines before it. By induction the same holds for any number of lines.

## Main definitions

* `Core.Instruction.draft`: the statement of an instruction before linking.
* `Core.Plain`: tables without macros and with standard equates only.
* `Core.Line.Admitted`: the lines that are taken.

## Main results

* `Core.read_text_of_admitted`, `Core.read_text_of_not_admitted`: reading one line.
* `Core.readAll_of_admitted`, `Core.readAll_of_not_admitted`: reading lines.
-/

namespace StackMachine

namespace Core

open Assembly

/-! ### Instructions -/

namespace Instruction

/-- The literal of an instruction, if it has one, is in its range. -/
def InRange (i : Instruction) : Prop :=
  ∀ n, i.term = some (.number n) → n.InRange

/-- The statement of an instruction before its label has an address. -/
def draft (i : Instruction) (lineNo address : Nat) : Statement where
  line := lineNo
  ip := address
  words := i.words
  instr := .ofOpcode i.op <|
    match i.term with
    | some (.number n) => Int32.ofInt n.signed
    | _ => 0
  link :=
    match i.term with
    | some (.name label) => some label.text
    | _ => none

end Instruction

/-- Tables that the core language is read with: no macros, and standard equates only. -/
structure Plain (s : State) : Prop where
  macros : ∀ name, s.macros.find? name = none
  equates : OnlyStandard s.equates

theorem Plain.atLine {s : State} (plain : Plain s) (lineNo : Nat) : Plain (s.atLine lineNo) where
  macros := plain.macros
  equates := by
    intro word free
    have other : lineName ≠ word := by
      rintro rfl
      exact free (by simp [Assembler.standardEquates])
    rw [State.atLine, Dictionary.find?_set_of_ne _ _ other]
    exact plain.equates word free

section Emit

variable {s : State} (plain : Plain s) (lineNo : Nat) {i : Instruction}

include plain in
/-- An instruction whose literal is in range is assembled. -/
theorem emit_words (inRange : i.InRange) :
    s.emit lineNo i.words = (s.append (i.draft lineNo s.address), .ok ()) := by
  have named := i.ofMnemonic?_mnemonic
  have arity := i.arity
  cases h : i.argument with
  | none =>
    have bare : i.term = none := by simp [Instruction.term, h]
    have takesNone : i.op.takesOperand = false := by simpa [h] using arity.symm
    simp [State.emit, Instruction.words, h, named, takesNone, State.statement, Instruction.draft,
      bare]
  | some a =>
    have term : i.term = some a.operand.term := by simp [Instruction.term, h]
    have takes : i.op.takesOperand = true := by simpa [h] using arity.symm
    have operand := operandOf_text plain.equates a.operand
    cases kind : a.operand.term with
    | number n =>
      rw [kind] at term operand
      rw [Term.text, plainOperand_number (inRange n term)] at operand
      simp [State.emit, Instruction.words, h, named, takes, operand, State.statement,
        Instruction.draft, term]
    | name label =>
      rw [kind] at term operand
      rw [Term.text, plainOperand_name] at operand
      simp [State.emit, Instruction.words, h, named, takes, operand, State.statement,
        Instruction.draft, term]

include plain in
/-- An instruction whose literal is out of range is refused. -/
theorem emit_words_of_not_inRange (outside : ¬ i.InRange) :
    ∃ problem, s.emit lineNo i.words = (s, .error problem) := by
  have named := i.ofMnemonic?_mnemonic
  simp only [Instruction.InRange, not_forall] at outside
  obtain ⟨n, term, outside⟩ := outside
  obtain ⟨a, argument, kind⟩ : ∃ a, i.argument = some a ∧ a.operand.term = .number n := by
    simpa [Instruction.term] using term
  have takes : i.op.takesOperand = true := by simpa [argument] using i.arity.symm
  have operand := operandOf_text plain.equates a.operand
  obtain ⟨cause, refused⟩ := plainOperand_number_of_not_inRange outside
  rw [kind, Term.text, refused] at operand
  simp [State.emit, Instruction.words, argument, named, takes, operand, State.refuse]

end Emit

/-- A word that begins as an identifier does is no directive. -/
theorem ne_directive {word directive : Text} (point : directive.head? = some (.scalar '.'))
    (h : ∃ g rest, word = g :: rest ∧ startsIdentifier g = true) : word ≠ directive := by
  rintro rfl
  obtain ⟨g, rest, rfl, starts⟩ := h
  rw [List.head?_cons, Option.some.injEq] at point
  rw [point] at starts
  cases starts

/-- The words of an instruction are not replaced and call no macro. -/
theorem assembleWords_words {s : State} (plain : Plain s) (lineNo : Nat) (i : Instruction)
    (expand : MacroCall → State → Outcome Unit) :
    assembleWords expand lineNo i.words s = s.emit lineNo i.words := by
  have directive : i.words.head? ≠ some (Text.ofString ".equ") := by
    have first : i.mnemonic ≠ Text.ofString ".equ" := ne_directive (by decide) i.exists_mnemonic
    simpa [Instruction.words] using first
  have kept : replaceEquates s.equates i.words = i.words := by
    have mnemonic := plain.equates _ i.mnemonic_free
    cases h : i.argument with
    | none => simp [replaceEquates, Instruction.words, h, mnemonic]
    | some a =>
      have operand := plain.equates _ a.operand.free
      simp [replaceEquates, Instruction.words, h, mnemonic, operand]
  rw [assembleWords, if_neg directive, kept]
  simp [Instruction.words, plain.macros]

/-! ### Labels -/

/-- The tables with several labels more, all at the address of the next statement. -/
def addLabels (lineNo : Nat) (ls : List Label) (s : State) : State :=
  ls.foldl (fun s l => s.addLabel lineNo l.name.text) s

section AddLabels

variable (lineNo : Nat) (ls : List Label) (s : State)

theorem addLabels_statements : (addLabels lineNo ls s).statements = s.statements := by
  induction ls generalizing s with
  | nil => rfl
  | cons l rest ih => exact ih _

theorem addLabels_labels :
    (addLabels lineNo ls s).labels =
      s.labels ++ ls.map fun l => (l.name.text, s.address) := by
  induction ls generalizing s with
  | nil => simp [addLabels]
  | cons l rest ih =>
    have others := ih (s.addLabel lineNo l.name.text)
    rw [addLabels, List.foldl_cons, ← addLabels, others]
    simp [State.addLabel, State.address]

theorem addLabels_plain (plain : Plain s) : Plain (addLabels lineNo ls s) := by
  induction ls generalizing s with
  | nil => exact plain
  | cons l rest ih => exact ih _ ⟨plain.macros, plain.equates⟩

end AddLabels

/-- The names of the labels of a line are new and distinct. -/
def Fresh (s : State) (ls : List Label) : Prop :=
  (s.labels.map Prod.fst ++ ls.map fun l => l.name.text).Nodup

theorem Fresh.head {s : State} {l : Label} {ls : List Label} (fresh : Fresh s (l :: ls)) :
    s.hasLabel l.name.text = false := by
  have disjoint := (List.nodup_append.mp fresh).2.2
  by_contra known
  rw [Bool.not_eq_false, State.hasLabel_iff] at known
  exact disjoint _ known _ (by simp) rfl

theorem fresh_addLabel (lineNo : Nat) (s : State) (l : Label) (ls : List Label) :
    Fresh (s.addLabel lineNo l.name.text) ls ↔ Fresh s (l :: ls) := by
  simp [Fresh, State.addLabel]

section DefineLabels

variable (lineNo : Nat) {ending : Text} (noLabel : takeLabel? (Text.trim ending) = none)

theorem length_labels_le (ls : List Label) (ending : Text) :
    ls.length ≤ (Text.trim (ls.flatMap Label.text ++ ending)).length := by
  induction ls with
  | nil => exact Nat.zero_le _
  | cons l rest ih =>
    have shorter := Text.length_trim_le
      ((l.after.text ++ (rest.flatMap Label.text ++ ending)).rdropWhile Glyph.isBlank)
    rw [Text.trim_rdropWhile, Text.trim_blank_append _ l.after.isBlank] at shorter
    rw [List.flatMap_cons, List.append_assoc, trim_label]
    simp only [List.length_append, List.length_cons]
    omega

include noLabel in
/-- New labels are taken off a line and defined. -/
theorem defineLabelsWithin_of_fresh (ls : List Label) (fuel : Nat) (enough : ls.length ≤ fuel)
    (s : State) (fresh : Fresh s ls) :
    State.defineLabelsWithin lineNo fuel s (Text.trim (ls.flatMap Label.text ++ ending)) =
      (addLabels lineNo ls s, .ok (Text.trim ending)) := by
  induction ls generalizing fuel s with
  | nil =>
    cases fuel with
    | zero => rfl
    | succ fuel => simp [State.defineLabelsWithin, noLabel, addLabels]
  | cons l rest ih =>
    obtain ⟨fuel, rfl⟩ : ∃ n, fuel = n + 1 := ⟨fuel - 1, by simp at enough; omega⟩
    have others := ih fuel (by simpa using enough) (s.addLabel lineNo l.name.text)
      ((fresh_addLabel lineNo s l rest).mpr fresh)
    rw [List.flatMap_cons, List.append_assoc, State.defineLabelsWithin, takeLabel?_label]
    simp only [l.name.identifier, fresh.head, others, Bool.not_true, Bool.false_eq_true, if_false]
    rfl

/-- A label that is not new is refused. -/
theorem defineLabelsWithin_of_not_fresh (ls : List Label) (fuel : Nat) (enough : ls.length ≤ fuel)
    (s : State) (distinct : (s.labels.map Prod.fst).Nodup) (known : ¬ Fresh s ls) :
    ∃ t problem, State.defineLabelsWithin lineNo fuel s
      (Text.trim (ls.flatMap Label.text ++ ending)) = (t, .error problem) := by
  induction ls generalizing fuel s with
  | nil => exact absurd (by simpa [Fresh] using distinct) known
  | cons l rest ih =>
    obtain ⟨fuel, rfl⟩ : ∃ n, fuel = n + 1 := ⟨fuel - 1, by simp at enough; omega⟩
    rw [List.flatMap_cons, List.append_assoc, State.defineLabelsWithin, takeLabel?_label]
    simp only [l.name.identifier, Bool.not_true, Bool.false_eq_true, if_false]
    cases used : s.hasLabel l.name.text with
    | true => exact ⟨_, _, rfl⟩
    | false =>
      have unused : l.name.text ∉ s.labels.map Prod.fst := by
        rw [← State.hasLabel_iff, used]
        exact Bool.false_ne_true
      refine ih fuel (by simpa using enough) _ ?_ fun fresh =>
        known ((fresh_addLabel lineNo s l rest).mp fresh)
      simpa [State.addLabel] using distinct.concat unused

end DefineLabels

/-! ### Lines -/

namespace Line

/-- A line that is taken: its labels are new and its literal is in range. -/
structure Admitted (line : Line) (s : State) : Prop where
  fresh : Fresh s line.labels
  inRange : ∀ i, line.instruction = some i → i.InRange

/-- The tables after a line that is taken. -/
def extend (line : Line) (lineNo : Nat) (s : State) : State :=
  let labelled := addLabels lineNo line.labels (s.atLine lineNo)
  match line.instruction with
  | none => labelled
  | some i => labelled.append (i.draft lineNo labelled.address)

variable (line : Line) (lineNo : Nat) {s : State}

theorem extend_labels (s : State) :
    (line.extend lineNo s).labels =
      s.labels ++ line.labels.map fun l => (l.name.text, s.address) := by
  have labelled := addLabels_labels lineNo line.labels (s.atLine lineNo)
  unfold extend
  cases line.instruction with
  | none => exact labelled
  | some i => exact labelled

theorem extend_statements (s : State) :
    (line.extend lineNo s).statements.toList =
      s.statements.toList ++ line.instruction.toList.map fun i => i.draft lineNo s.address := by
  have labelled : (addLabels lineNo line.labels (s.atLine lineNo)).statements = s.statements :=
    addLabels_statements lineNo line.labels (s.atLine lineNo)
  unfold extend
  cases line.instruction with
  | none => simp [labelled]
  | some i => simp [State.append, State.address, labelled]

theorem extend_address (s : State) :
    (line.extend lineNo s).address = s.address + line.instruction.toList.length := by
  have statements := congrArg List.length (line.extend_statements lineNo s)
  simpa [State.address] using statements

theorem extend_plain (plain : Plain s) : Plain (line.extend lineNo s) := by
  have labelled := addLabels_plain lineNo line.labels _ (plain.atLine lineNo)
  unfold extend
  cases line.instruction with
  | none => exact labelled
  | some i => exact ⟨labelled.macros, labelled.equates⟩

theorem defineLabels_of_fresh (fresh : Fresh s line.labels) :
    s.defineLabels lineNo (Text.trim line.body) =
      (addLabels lineNo line.labels s, .ok (Text.trim line.ending)) := by
  rw [State.defineLabels, trim_body]
  exact defineLabelsWithin_of_fresh lineNo line.takeLabel?_ending line.labels _
    (length_labels_le line.labels line.ending) s fresh

theorem defineLabels_of_not_fresh (distinct : (s.labels.map Prod.fst).Nodup)
    (known : ¬ Fresh s line.labels) :
    ∃ t problem, s.defineLabels lineNo (Text.trim line.body) = (t, .error problem) := by
  rw [State.defineLabels, trim_body]
  exact defineLabelsWithin_of_not_fresh lineNo line.labels _
    (length_labels_le line.labels line.ending) s distinct known

variable (expand : MacroCall → State → Outcome Unit)

/-- A line that is taken is assembled. -/
theorem assembleLineWith_of_admitted [Interpreter] (plain : Plain s) (admitted : line.Admitted s) :
    assembleLineWith expand lineNo (Text.trim line.body) s = (line.extend lineNo s, .ok ()) := by
  have labelled := line.defineLabels_of_fresh lineNo (s := s.atLine lineNo) admitted.fresh
  have tables := addLabels_plain lineNo line.labels _ (plain.atLine lineNo)
  simp only [assembleLineWith, replaceExpressions_body, labelled, fields_ending, extend]
  cases h : line.instruction with
  | none => rfl
  | some i =>
    simp only [Option.map_some, Option.getD_some, assembleWords_words tables,
      emit_words tables lineNo (admitted.inRange i h)]

/-- A line that is not taken is refused. -/
theorem assembleLineWith_of_not_admitted [Interpreter] (plain : Plain s)
    (distinct : (s.labels.map Prod.fst).Nodup) (refused : ¬ line.Admitted s) :
    ∃ t problem, assembleLineWith expand lineNo (Text.trim line.body) s = (t, .error problem) := by
  simp only [assembleLineWith, replaceExpressions_body]
  by_cases fresh : Fresh s line.labels
  · have labelled := line.defineLabels_of_fresh lineNo (s := s.atLine lineNo) fresh
    have tables := addLabels_plain lineNo line.labels _ (plain.atLine lineNo)
    obtain ⟨i, instruction, outside⟩ : ∃ i, line.instruction = some i ∧ ¬ i.InRange := by
      by_contra none
      refine refused ⟨fresh, fun i h => ?_⟩
      by_contra outside
      exact none ⟨i, h, outside⟩
    obtain ⟨problem, emitted⟩ := emit_words_of_not_inRange tables lineNo outside
    simp only [labelled, fields_ending, instruction, Option.map_some, Option.getD_some,
      assembleWords_words tables, emitted]
    exact ⟨_, _, rfl⟩
  · obtain ⟨t, problem, labelled⟩ :=
      line.defineLabels_of_not_fresh lineNo (s := s.atLine lineNo) distinct fresh
    simp only [labelled]
    exact ⟨_, _, rfl⟩

end Line

/-! ### Reading -/

/-- A reader of the core language: no macro is being defined, the tables are plain and no label
stands in them twice. -/
structure Ready (r : Reader) : Prop where
  closed : r.openMacro = none
  plain : Plain r.state
  distinct : (r.state.labels.map Prod.fst).Nodup

/-- The reader after a line that is taken. -/
def Line.readBy (line : Line) (r : Reader) : Reader :=
  { r with
    lineNo := r.lineNo + 1
    line := Text.trim line.body
    state := line.extend (r.lineNo + 1) r.state }

section Read

variable {r : Reader} (ready : Ready r) {line : Line}

variable [Interpreter]

theorem exists_assembleLine (depth : Nat) (active : List Text) :
    ∃ expand, assembleLine depth active = assembleLineWith expand := by
  cases depth with
  | zero => exact ⟨_, rfl⟩
  | succ depth => exact ⟨_, rfl⟩

include ready

theorem read_text (line : Line) :
    r.read (Lines.dropReturn line.text) =
      Reader.assembleCurrent { r with lineNo := r.lineNo + 1, line := Text.trim line.body } := by
  have begins : (Text.fields (Text.trim line.body)).head? ≠ some (Text.ofString ".macro") :=
    fun h => ne_directive (by decide) (line.head?_fields_body _ h) rfl
  have ends : (Text.fields (Text.trim line.body)).head? ≠ some (Text.ofString ".endm") :=
    fun h => ne_directive (by decide) (line.head?_fields_body _ h) rfl
  simp only [Reader.read, line.stripComment_text, if_neg begins, if_neg ends, ready.closed]

/-- A line whose labels are new and whose literal is in range is taken. -/
theorem read_text_of_admitted (admitted : line.Admitted r.state) :
    r.read (Lines.dropReturn line.text) = (line.readBy r, none) := by
  obtain ⟨expand, assembles⟩ := exists_assembleLine r.state.macros.entries.length []
  have taken := line.assembleLineWith_of_admitted (r.lineNo + 1) expand ready.plain admitted
  rw [read_text ready]
  simp only [Reader.assembleCurrent, assembles, taken]
  rfl

/-- Every other line is refused. -/
theorem read_text_of_not_admitted (refused : ¬ line.Admitted r.state) :
    ∃ next problem, r.read (Lines.dropReturn line.text) = (next, some problem) := by
  obtain ⟨expand, assembles⟩ := exists_assembleLine r.state.macros.entries.length []
  obtain ⟨t, problem, result⟩ := line.assembleLineWith_of_not_admitted (r.lineNo + 1) expand
    ready.plain ready.distinct refused
  rw [read_text ready]
  simp only [Reader.assembleCurrent, assembles, result]
  exact ⟨_, _, rfl⟩

omit [Interpreter] in
theorem Ready.readBy (admitted : line.Admitted r.state) : Ready (line.readBy r) where
  closed := ready.closed
  plain := line.extend_plain _ ready.plain
  distinct := by
    have fresh := admitted.fresh
    simpa [Line.readBy, Line.extend_labels, Fresh, Function.comp_def] using fresh

end Read

/-! ### Any number of lines -/

/-- Lines that are all taken: their labels are new and distinct, and their literals are in range. -/
structure Taken (r : Reader) (lines : List Line) : Prop where
  fresh : (r.state.labels.map Prod.fst ++
    (definitions r.state.address lines).map fun label => label.1.text).Nodup
  inRange : ∀ entry ∈ instructions (r.lineNo + 1) lines, entry.2.InRange

/-- What lines that are all taken add to the tables. -/
structure Adds (r next : Reader) (lines : List Line) : Prop where
  labels : next.state.labels = r.state.labels ++
    (definitions r.state.address lines).map fun label => (label.1.text, label.2)
  statements : next.state.statements.toList = r.state.statements.toList ++
    (instructions (r.lineNo + 1) lines).mapIdx fun k entry =>
      entry.2.draft entry.1 (r.state.address + k)

section Cons

variable (r : Reader) (line : Line) (rest : List Line)

theorem readBy_address :
    (line.readBy r).state.address = r.state.address + line.instruction.toList.length :=
  line.extend_address _ _

theorem names_cons :
    (line.readBy r).state.labels.map Prod.fst ++
        (definitions (line.readBy r).state.address rest).map (fun label => label.1.text) =
      r.state.labels.map Prod.fst ++
        (definitions r.state.address (line :: rest)).map fun label => label.1.text := by
  rw [readBy_address]
  simp [Line.readBy, Line.extend_labels, definitions, Function.comp_def]

/-- Lines are all taken if the first is, and the others are after it. -/
theorem taken_cons :
    Taken r (line :: rest) ↔ line.Admitted r.state ∧ Taken (line.readBy r) rest := by
  have names := names_cons r line rest
  constructor
  · intro taken
    refine ⟨⟨?_, fun i h => ?_⟩, ⟨?_, fun entry h => ?_⟩⟩
    · have fresh := taken.fresh
      rw [← names] at fresh
      have front := (List.nodup_append.mp fresh).1
      simpa [Line.readBy, Line.extend_labels, Fresh, Function.comp_def] using front
    · exact taken.inRange (r.lineNo + 1, i) (by simp [instructions, h])
    · rw [names]
      exact taken.fresh
    · exact taken.inRange entry (List.mem_append_right _ h)
  · rintro ⟨admitted, taken⟩
    refine ⟨?_, fun entry h => ?_⟩
    · rw [← names]
      exact taken.fresh
    · rcases List.mem_append.mp h with first | later
      · obtain ⟨i, instruction, rfl⟩ := List.mem_map.mp first
        exact admitted.inRange i (Option.mem_toList.mp instruction)
      · exact taken.inRange entry later

theorem Adds.cons {next : Reader} (adds : Adds (line.readBy r) next rest) :
    Adds r next (line :: rest) where
  labels := by
    rw [adds.labels, readBy_address]
    simp [Line.readBy, Line.extend_labels, definitions]
  statements := by
    rw [adds.statements, readBy_address]
    simp only [Line.readBy, Line.extend_statements, instructions, List.mapIdx_append]
    cases line.instruction with
    | none => simp
    | some i => simp [Nat.add_assoc, Nat.add_comm 1]

end Cons

/-- Lines that can all be taken are read to their end. -/
theorem readAll_of_taken [Interpreter] {r : Reader} (ready : Ready r) (lines : List Line)
    (taken : Taken r lines) :
    ∃ next, r.readAll (lines.map fun line => Lines.dropReturn line.text) = (next, none) ∧
      Ready next ∧ Adds r next lines := by
  induction lines generalizing r with
  | nil => exact ⟨r, rfl, ready, ⟨by simp [definitions], by simp [instructions]⟩⟩
  | cons line rest ih =>
    obtain ⟨admitted, others⟩ := (taken_cons r line rest).mp taken
    obtain ⟨next, result, readyNext, adds⟩ := ih (ready.readBy admitted) others
    refine ⟨next, ?_, readyNext, adds.cons r line rest⟩
    rw [List.map_cons, Reader.readAll, read_text_of_admitted ready admitted]
    exact result

/-- Other lines are read up to the first that is refused. -/
theorem readAll_of_not_taken [Interpreter] {r : Reader} (ready : Ready r) (lines : List Line)
    (refused : ¬ Taken r lines) :
    ∃ next problem,
      r.readAll (lines.map fun line => Lines.dropReturn line.text) = (next, some problem) := by
  induction lines generalizing r with
  | nil =>
    have taken : Taken r [] := ⟨by simpa [definitions] using ready.distinct, by simp [instructions]⟩
    exact absurd taken refused
  | cons line rest ih =>
    rw [List.map_cons, Reader.readAll]
    by_cases admitted : line.Admitted r.state
    · rw [read_text_of_admitted ready admitted]
      exact ih (ready.readBy admitted) fun taken =>
        refused ((taken_cons r line rest).mpr ⟨admitted, taken⟩)
    · obtain ⟨next, problem, result⟩ := read_text_of_not_admitted ready admitted
      rw [result]
      exact ⟨next, problem, rfl⟩

end Core

end StackMachine
