import StackMachine.Assembly.Expression.Eval
import StackMachine.Proofs.Assembly.CoreReading

/-!
# The core language is assembled correctly

A source text of the core language is accepted exactly if its lines have a program, and
then this program is the result. The lines are read one after another, and linking
replaces every name by the number of instructions before the definition of its label,
wherever the definition stands.

## Main results

* `Core.assemble_source_cases`: the lines are all taken, or the source text is refused.
* `Core.exists_reader_of_acceptable`: the tables behind the program of a source text.
* `Core.assemble_source`: acceptance and the program, in terms of the written lines.
-/

namespace StackMachine

namespace Core

open Assembly

/-! ### The lines of a source text -/

theorem instructions_append (lineNo : Nat) (front back : List Line) :
    instructions lineNo (front ++ back) =
      instructions lineNo front ++ instructions (lineNo + front.length) back := by
  induction front generalizing lineNo with
  | nil => simp [instructions]
  | cons line rest ih => simp [instructions, ih, Nat.add_assoc, Nat.add_comm 1]

theorem definitions_append (address lineNo : Nat) (front back : List Line) :
    definitions address (front ++ back) =
      definitions address front ++
        definitions (address + (instructions lineNo front).length) back := by
  induction front generalizing address lineNo with
  | nil => simp [definitions, instructions]
  | cons line rest ih => simp [definitions, instructions, ih _ (lineNo + 1), Nat.add_assoc]

theorem Line.blank_of_text {line : Line} (h : line.text = []) :
    line.labels = [] ∧ line.instruction = none := by
  simp only [Line.text, Line.body, Line.ending, List.append_eq_nil_iff] at h
  obtain ⟨⟨-, labels, instruction, -⟩, -⟩ := h
  constructor
  · cases hl : line.labels with
    | nil => rfl
    | cons l rest => simp [hl, Label.text] at labels
  · cases hi : line.instruction with
    | none => rfl
    | some i => simp [hi, Instruction.text, i.mnemonic_ne_nil] at instruction

/-- The lines of a source text are those written, but for an empty last one, which holds
nothing. -/
theorem exists_raw_source (lines : List Line) :
    ∃ kept : List Line, Lines.raw (source lines) = kept.map Line.text ∧
      (∀ line ∈ kept, line ∈ lines) ∧
      (∀ lineNo, instructions lineNo kept = instructions lineNo lines) ∧
      ∀ address, definitions address kept = definitions address lines := by
  have feeds : ∀ text ∈ lines.map Line.text, .scalar '\n' ∉ text :=
    List.forall_mem_map.mpr fun line _ => line.feed_not_mem_text
  have raw := Lines.raw_join (lines.map Line.text) feeds
  rw [← source] at raw
  by_cases empty : (lines.map Line.text).getLast? = some []
  · rw [if_pos empty] at raw
    obtain ⟨last, atEnd, text⟩ : ∃ last, lines.getLast? = some last ∧ last.text = [] := by
      simpa using empty
    have split : lines = lines.dropLast ++ [last] :=
      (List.dropLast_append_getLast? last atEnd).symm
    obtain ⟨noLabels, noInstruction⟩ := Line.blank_of_text text
    refine ⟨lines.dropLast, by simpa using raw, fun line h => List.mem_of_mem_dropLast h,
      fun lineNo => ?_, fun address => ?_⟩
    · rw [split, instructions_append]
      simp [instructions, noInstruction]
    · rw [split, definitions_append address 1]
      simp [definitions, noLabels]
  · rw [if_neg empty] at raw
    exact ⟨lines, raw, fun _ h => h, fun _ => rfl, fun _ => rfl⟩

theorem ofText_eq {t : Text} (h : ∀ line ∈ Lines.raw t, Lines.fits line = true) :
    (Lines.ofText t).lines = (Lines.raw t).map Lines.dropReturn ∧
      (Lines.ofText t).overlong = false := by
  constructor
  · rw [Lines.ofText, List.takeWhile_eq_self_iff.mpr h]
  · simpa [Lines.ofText] using h

/-! ### The reader before the first line -/

/-- The reader of a source text without equates of its own. -/
abbrev start : Reader :=
  Assembler.reader {}

theorem ready_start : Ready start where
  closed := rfl
  distinct := by simp [Assembler.reader]
  plain := {
    macros := fun _ => rfl
    equates := by
      intro word free
      exact Dictionary.find?_setAll_of_not_mem {} free }

/-- The tables of some lines that have all been taken. -/
structure Holds (s : State) (lines : List Line) : Prop where
  labels : s.labels = (definitions 0 lines).map fun label => (label.1.text, label.2)
  statements : s.statements.toList =
    (instructions 1 lines).mapIdx fun k entry => entry.2.draft entry.1 k

/-- Either all lines are taken and the tables hold them, or the source text is refused. -/
theorem assemble_source_cases [Interpreter] (lines : List Line)
    (fits : ∀ line ∈ lines, Lines.fits line.text = true) :
    (Taken start lines ∧ ∃ r : Reader, Ready r ∧ Holds r.state lines ∧
        ∀ p, assemble (source lines) = .ok p ↔ r.finish false = .ok p) ∨
      (¬ Taken start lines ∧ ∀ p, assemble (source lines) ≠ .ok p) := by
  obtain ⟨kept, raw, sub, sameInstructions, sameLabels⟩ := exists_raw_source lines
  have fitting : ∀ text ∈ Lines.raw (source lines), Lines.fits text = true := by
    rw [raw]
    exact List.forall_mem_map.mpr fun line h => fits line (sub line h)
  obtain ⟨read, complete⟩ := ofText_eq fitting
  rw [raw, List.map_map] at read
  have same : Taken start kept ↔ Taken start lines := by
    constructor
    all_goals
      rintro ⟨fresh, inRange⟩
      refine ⟨?_, ?_⟩
      · simpa only [sameLabels] using fresh
      · simpa only [sameInstructions] using inRange
  by_cases taken : Taken start kept
  · obtain ⟨r, result, ready, adds⟩ := readAll_of_taken ready_start kept taken
    refine .inl ⟨same.mp taken, r, ready, ⟨?_, ?_⟩, fun p => ?_⟩
    · have table := adds.labels
      rw [sameLabels] at table
      simpa [Assembler.reader, State.address] using table
    · have table := adds.statements
      rw [sameInstructions] at table
      simpa [Assembler.reader, State.address] using table
    · rw [assemble, Assembler.parse_eq_ok_iff, read, complete]
      constructor
      · rintro ⟨other, readOther, finished⟩
        cases result.symm.trans readOther
        exact finished
      · exact fun finished => ⟨r, result, finished⟩
  · refine .inr ⟨fun all => taken (same.mpr all), fun p accepted => ?_⟩
    obtain ⟨next, problem, result⟩ := readAll_of_not_taken ready_start kept taken
    rw [assemble, Assembler.parse_eq_ok_iff, read] at accepted
    obtain ⟨other, readOther, -⟩ := accepted
    cases result.symm.trans readOther

/-! ### Acceptance -/

theorem nodup_names_iff (names : List Name) :
    (names.map Name.text).Nodup ↔ names.Nodup :=
  List.nodup_map_iff fun _ _ => Name.ext

theorem taken_start_iff (lines : List Line) :
    Taken start lines ↔
      ((definitions 0 lines).map Prod.fst).Nodup ∧
        ∀ lineNo i n, (lineNo, i) ∈ instructions 1 lines → i.term = some (.number n) →
          n.InRange := by
  have names : (definitions 0 lines).map (fun label => label.1.text) =
      ((definitions 0 lines).map Prod.fst).map Name.text := by simp
  constructor
  · rintro ⟨fresh, inRange⟩
    have distinct : ((definitions 0 lines).map fun label => label.1.text).Nodup := by
      simpa [Assembler.reader, State.address] using fresh
    rw [names, nodup_names_iff] at distinct
    exact ⟨distinct, fun lineNo i n h term => inRange (lineNo, i) h n term⟩
  · rintro ⟨distinct, inRange⟩
    rw [← nodup_names_iff, ← names] at distinct
    refine ⟨?_, fun entry h n term => inRange entry.1 entry.2 n h term⟩
    simpa [Assembler.reader, State.address] using distinct

theorem address_le {name : Name} {target : Nat} (address lineNo : Nat) (lines : List Line)
    (h : (name, target) ∈ definitions address lines) :
    target ≤ address + (instructions lineNo lines).length := by
  induction lines generalizing address lineNo with
  | nil => cases h
  | cons line rest ih =>
    simp only [instructions, List.length_append, List.length_map]
    rcases List.mem_append.mp h with first | later
    · obtain ⟨l, -, pair⟩ := List.mem_map.mp first
      cases pair
      omega
    · have bound := ih _ (lineNo + 1) later
      omega

theorem Instruction.exists_name_of_link (i : Instruction) {lineNo address : Nat} {text : Text}
    (h : (i.draft lineNo address).link = some text) :
    ∃ name, i.term = some (.name name) ∧ name.text = text := by
  unfold Instruction.draft at h
  dsimp only at h
  split at h
  · rename_i name term
    exact ⟨name, term, Option.some.inj h⟩
  · cases h

theorem Number.toInt_signed (n : Number) : (Int32.ofInt n.signed).toInt = n.signed := by
  have lower := Int.le_bmod (x := n.value) (m := 2 ^ 24) (by decide)
  have upper := Int.bmod_lt (x := n.value) (m := 2 ^ 24) (by decide)
  exact Int32.toInt_ofInt_of_le (by simp only [Number.signed]; omega)
    (by simp only [Number.signed]; omega)

section Tables

variable {s : State} {lines : List Line} (holds : Holds s lines)

include holds

theorem Holds.address : s.address = (instructions 1 lines).length := by
  have length := congrArg List.length holds.statements
  simpa [State.address] using length

theorem Holds.mem_labels {text : Text} {target : Nat} (h : (text, target) ∈ s.labels) :
    ∃ name : Name, name.text = text ∧ (name, target) ∈ definitions 0 lines := by
  rw [holds.labels] at h
  obtain ⟨⟨name, address⟩, member, pair⟩ := List.mem_map.mp h
  cases pair
  exact ⟨name, rfl, member⟩

theorem Holds.mem_names (name : Name) :
    name.text ∈ s.labels.map Prod.fst ↔ name ∈ (definitions 0 lines).map Prod.fst := by
  have names : s.labels.map Prod.fst = ((definitions 0 lines).map Prod.fst).map Name.text := by
    simp [holds.labels]
  rw [names]
  exact List.mem_map_of_injective fun _ _ => Name.ext

/-- No label is behind the last statement exactly if some instruction follows every label. -/
theorem Holds.settled_iff :
    (∀ label ∈ s.labels, label.2 ≠ s.address) ↔
      ∀ name target, (name, target) ∈ definitions 0 lines →
        target < (instructions 1 lines).length := by
  rw [holds.address]
  constructor
  · intro settled name target h
    have bound := address_le 0 1 lines h
    have apart := settled (name.text, target) (by
      rw [holds.labels]
      exact List.mem_map_of_mem (f := fun label : Name × Nat => (label.1.text, label.2)) h)
    simp only at apart
    omega
  · rintro followed ⟨text, target⟩ h
    obtain ⟨name, -, member⟩ := holds.mem_labels h
    exact Nat.ne_of_lt (followed name target member)

theorem Holds.mem_statements {statement : Statement} :
    statement ∈ s.statements ↔
      ∃ (k lineNo : Nat) (i : Instruction),
        (instructions 1 lines)[k]? = some (lineNo, i) ∧ i.draft lineNo k = statement := by
  rw [Array.mem_def, holds.statements, List.mem_mapIdx]
  constructor
  · rintro ⟨k, inside, rfl⟩
    exact ⟨k, _, _, List.getElem?_eq_getElem inside, rfl⟩
  · rintro ⟨k, lineNo, i, found, rfl⟩
    obtain ⟨inside, entry⟩ := List.getElem?_eq_some_iff.mp found
    exact ⟨k, inside, by rw [entry]⟩

/-- Every statement can be linked exactly if every name that is used is defined. -/
theorem Holds.resolvable_iff :
    (∀ statement ∈ s.statements, s.Resolvable statement) ↔
      ∀ lineNo i name, (lineNo, i) ∈ instructions 1 lines → i.term = some (.name name) →
        name ∈ (definitions 0 lines).map Prod.fst := by
  constructor
  · intro resolvable lineNo i name member term
    obtain ⟨k, found⟩ := List.getElem?_of_mem member
    have statement := holds.mem_statements.mpr ⟨k, lineNo, i, found, rfl⟩
    rw [← holds.mem_names]
    exact resolvable _ statement name.text (by simp [Instruction.draft, term])
  · intro defined statement member text link
    obtain ⟨k, lineNo, i, found, rfl⟩ := holds.mem_statements.mp member
    obtain ⟨name, term, rfl⟩ := i.exists_name_of_link link
    rw [holds.mem_names]
    exact defined lineNo i name (List.mem_of_getElem? found) term

/-- An instruction becomes its statement, once its label has an address. -/
theorem Holds.becomes {k lineNo : Nat} {i : Instruction}
    (resolvable : s.Resolvable (i.draft lineNo k))
    (small : (instructions 1 lines).length < 2 ^ 31) :
    i.Becomes (definitions 0 lines) lineNo k (s.resolved (i.draft lineNo k)) where
  line := by simp [Instruction.draft]
  ip := by simp [Instruction.draft]
  words := by simp [Instruction.draft]
  tag := by simp [Instruction.draft, Instr.ofOpcode]
  bare := by
    intro term
    have link : (i.draft lineNo k).link = none := by simp [Instruction.draft, term]
    rw [State.resolved_of_literal link]
    exact ⟨by simp [Instruction.draft, term, Instr.ofOpcode], link⟩
  number := by
    intro n term
    have link : (i.draft lineNo k).link = none := by simp [Instruction.draft, term]
    rw [State.resolved_of_literal link]
    exact ⟨by simp only [Instruction.draft, term, Instr.ofOpcode, n.toInt_signed], link⟩
  name := by
    intro name term
    have link : (i.draft lineNo k).link = some name.text := by simp [Instruction.draft, term]
    obtain ⟨target, address⟩ := State.exists_labelAddress? (resolvable name.text link)
    obtain ⟨other, sameText, member⟩ := holds.mem_labels (State.mem_of_labelAddress? address)
    cases Name.ext sameText
    have bound := address_le 0 1 lines member
    have exact32 : (Int32.ofInt target).toInt = target :=
      Int32.toInt_ofInt_of_le (by omega) (by omega)
    refine ⟨⟨target, member, ?_⟩, by rw [State.resolved_link, link]⟩
    rw [State.resolved_operand link address, exact32]

end Tables

theorem assembled_program {r : Reader} {lines : List Line} (holds : Holds r.state lines)
    (resolvable : ∀ statement ∈ r.state.statements, r.state.Resolvable statement)
    (small : (instructions 1 lines).length < 2 ^ 31) : Assembled lines r.program where
  size := by
    have address := holds.address
    rw [r.size_program]
    exact address
  statements := by
    intro k lineNo i found
    have statement := holds.mem_statements.mpr ⟨k, lineNo, i, found, rfl⟩
    refine ⟨_, ?_, holds.becomes (resolvable _ statement) small⟩
    simp [Reader.program, holds.statements, found]
  labels := by simp [Reader.program, holds.labels]

/-- Lines that have a program are read into tables that hold them, and the source text is accepted
with the program of these tables. -/
theorem exists_reader_of_acceptable [Interpreter] {lines : List Line}
    (fits : ∀ line ∈ lines, Lines.fits line.text = true) (acceptable : Acceptable lines) :
    ∃ r : Reader, Holds r.state lines ∧
      (∀ statement ∈ r.state.statements, r.state.Resolvable statement) ∧
      assemble (source lines) = .ok r.program := by
  have taken := (taken_start_iff lines).mpr ⟨acceptable.distinct, acceptable.inRange⟩
  rcases assemble_source_cases lines fits with ⟨-, r, ready, holds, accepts⟩ | ⟨refused, -⟩
  · have settled := holds.settled_iff.mpr acceptable.followed
    have resolvable := holds.resolvable_iff.mpr acceptable.defined
    refine ⟨r, holds, resolvable, (accepts _).mpr ?_⟩
    exact (r.finish_eq_ok_iff false _).mpr ⟨rfl, ready.closed, settled, resolvable, rfl⟩
  · exact absurd taken refused

/-- **The core language is assembled correctly.** A source text of the core language, all of whose
lines can be read, is accepted exactly if its lines have a program, and this program is then the
result. -/
theorem assemble_source [Interpreter] (lines : List Line)
    (fits : ∀ line ∈ lines, Lines.fits line.text = true)
    (small : (instructions 1 lines).length < 2 ^ 31) :
    ((∃ p, assemble (source lines) = .ok p) ↔ Acceptable lines) ∧
      ∀ p, assemble (source lines) = .ok p → Assembled lines p := by
  rcases assemble_source_cases lines fits with
    ⟨taken, r, ready, holds, accepts⟩ | ⟨refused, rejects⟩
  · obtain ⟨distinct, inRange⟩ := (taken_start_iff lines).mp taken
    refine ⟨⟨?_, fun acceptable => ⟨r.program, ?_⟩⟩, fun p accepted => ?_⟩
    · rintro ⟨p, accepted⟩
      obtain ⟨-, -, settled, resolvable, -⟩ :=
        (r.finish_eq_ok_iff false p).mp ((accepts p).mp accepted)
      exact ⟨distinct, holds.resolvable_iff.mp resolvable, holds.settled_iff.mp settled, inRange⟩
    · refine (accepts _).mpr ((r.finish_eq_ok_iff false _).mpr ⟨rfl, ready.closed, ?_, ?_, rfl⟩)
      · exact holds.settled_iff.mpr acceptable.followed
      · exact holds.resolvable_iff.mpr acceptable.defined
    · obtain ⟨-, -, -, resolvable, rfl⟩ :=
        (r.finish_eq_ok_iff false p).mp ((accepts p).mp accepted)
      exact assembled_program holds resolvable small
  · refine ⟨⟨fun ⟨p, accepted⟩ => absurd accepted (rejects p), fun acceptable => ?_⟩,
      fun p accepted => absurd accepted (rejects p)⟩
    exact absurd ((taken_start_iff lines).mpr ⟨acceptable.distinct, acceptable.inRange⟩) refused

/-! ### A countdown -/

attribute [local instance] Assembly.Expression.interpreter

/-- The lines of a countdown, with a forward and two backward references:
`start: PUSH 0xfF ; count`, `again:`, `\tdec`, `jZ [end]`, `Jmp again` and `end :HALT`. -/
def countdown : List Line :=
  let none : Gap := ⟨[], by simp⟩
  let space : Gap := ⟨" ", by decide⟩
  let tab : Gap := ⟨"\t", by decide⟩
  let start : Name := ⟨"start", by decide, by decide⟩
  let again : Name := ⟨"again", by decide, by decide⟩
  let last : Name := ⟨"end", by decide, by decide⟩
  let count : Number := .hexadecimal false ⟨[⟨15, false⟩, ⟨15, true⟩], by simp⟩
  [⟨none, [⟨start, none, space⟩], some ⟨.push, "PUSH".toList, by decide,
      some ⟨space, by decide, ⟨.number count, false⟩⟩, rfl⟩, space, some ⟨" count", by decide⟩⟩,
   ⟨none, [⟨again, none, none⟩], .none, none, .none⟩,
   ⟨tab, [], some ⟨.dec, "dec".toList, by decide, .none, rfl⟩, none, .none⟩,
   ⟨space, [], some ⟨.jz, "jZ".toList, by decide,
      some ⟨space, by decide, ⟨.name last, true⟩⟩, rfl⟩, none, .none⟩,
   ⟨space, [], some ⟨.jmp, "Jmp".toList, by decide,
      some ⟨tab, by decide, ⟨.name again, false⟩⟩, rfl⟩, none, .none⟩,
   ⟨none, [⟨last, space, none⟩], some ⟨.halt, "HALT".toList, by decide, .none, rfl⟩, none, .none⟩]

theorem assemble_source_countdown :
    (∀ line ∈ countdown, Lines.fits line.text = true) ∧
      (instructions 1 countdown).length < 2 ^ 31 ∧ Acceptable countdown ∧
      ∃ p, assemble (source countdown) = .ok p ∧ Assembled countdown p := by
  have fits : ∀ line ∈ countdown, Lines.fits line.text = true := by decide +kernel
  have small : (instructions 1 countdown).length < 2 ^ 31 := by decide
  obtain ⟨acceptance, program⟩ := assemble_source countdown fits small
  have accepted : (assemble (source countdown)).toOption.isSome = true := by decide +kernel
  obtain ⟨p, result⟩ : ∃ p, assemble (source countdown) = .ok p := by
    cases h : assemble (source countdown) with
    | error e => simp [h, Except.toOption] at accepted
    | ok p => exact ⟨p, rfl⟩
  exact ⟨fits, small, acceptance.mp ⟨p, result⟩, p, result, program p result⟩

end Core

end StackMachine
