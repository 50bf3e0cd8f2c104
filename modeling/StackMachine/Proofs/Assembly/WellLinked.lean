import Mathlib.Algebra.Group.Int.Defs
import Mathlib.Algebra.Group.Nat.Defs
import Mathlib.Data.List.Nodup
import StackMachine.Assembly.Expression.Eval
import StackMachine.Proofs.Assembly.Changes
import StackMachine.Proofs.Assembly.Linking

/-!
# Accepted programs are well linked

Whatever equates, macros and expressions a source text uses, the tables keep an
invariant: statements lie at their positions, labels are distinct identifiers within the
statements read so far, and every statement has either a label or a number of 24 bits.
Accepting a source text turns the invariant into a property of its program.

## Main definitions

* `Statement.Drafted`: a statement that has not been linked.
* `Assembly.State.Sound`: the invariant of the tables.
* `Program.WellLinked`: the property of programs.

## Main results

* `Assembly.State.Change.sound`, `Assembly.State.Reaches.sound`: changes keep the invariant.
* `Assembler.exists_reading_of_parse`: the reading behind an accepted program.
* `Assembler.wellLinked_of_parse`: accepted programs are well linked.
-/

namespace StackMachine

open Assembly

/-- A statement before linking: it has a label for its operand, or an operand of 24 bits. -/
structure Statement.Drafted (statement : Statement) : Prop where
  defined : (Opcode.ofTag? statement.instr.tag).isSome = true
  literal : statement.link = none →
    (Instr.operandMin ≤ statement.instr.operand.toInt ∧
      statement.instr.operand.toInt ≤ Instr.operandMax) ∧
    (Opcode.tagTakesOperand statement.instr.tag = false → statement.instr.operand = 0)
  linked : ∀ name, statement.link = some name →
    Opcode.tagTakesOperand statement.instr.tag = true ∧ isIdentifier name = true

/-- A program whose labels are addresses in it and whose operands are what is written. -/
structure Program.WellLinked (p : Program) : Prop where
  /-- Every statement lies at its position. -/
  placed : ∀ (k : Nat) (statement : Statement),
    p.statements[k]? = some statement → statement.ip = k
  /-- Every label is an identifier at an address of the program. -/
  named : ∀ name address, (name, address) ∈ p.labels →
    isIdentifier name = true ∧ 0 ≤ address ∧ address < p.size
  /-- No name stands twice in the table of labels. -/
  distinct : (p.labels.map Prod.fst).Nodup
  /-- An operand that was written as a label is the address of the label. -/
  linked : ∀ statement ∈ p.statements, ∀ name, statement.link = some name →
    name ≠ [] ∧ Opcode.tagTakesOperand statement.instr.tag = true ∧
      (name, statement.instr.operand.toInt) ∈ p.labels
  /-- Any other operand has 24 bits, and is zero for an operation without operand. -/
  literal : ∀ statement ∈ p.statements, statement.link = none →
    -2 ^ 23 ≤ statement.instr.operand.toInt ∧ statement.instr.operand.toInt ≤ 2 ^ 23 - 1 ∧
      (Opcode.tagTakesOperand statement.instr.tag = false → statement.instr.operand = 0)

namespace Assembly

theorem toInt_ofInt_of_fits {n : Int} (h : (Operand.value n).Fits) :
    (Int32.ofInt n).toInt = n := by
  obtain ⟨lower, upper⟩ := h
  simp only [Instr.operandMin, Instr.operandMax] at lower upper
  exact Int32.toInt_ofInt_of_le (by omega) (by omega)

namespace State

variable {s t : State}

theorem statement_ip (s : State) (lineNo : Nat) (words : List Text) (op : Opcode)
    (operand : Option Operand) : (s.statement lineNo words op operand).ip = s.address := by
  rcases operand with _ | (n | name) <;> rfl

theorem statement_drafted (s : State) (lineNo : Nat) (words : List Text) {op : Opcode}
    {operand : Option Operand} (carries : Carries op operand) :
    (s.statement lineNo words op operand).Drafted := by
  have defined : (Opcode.ofTag? op.tag).isSome = true := by simp [Opcode.ofTag?_tag]
  rcases operand with _ | (n | name)
  · have zero : (Operand.value 0).Fits := ⟨by decide, by decide⟩
    refine ⟨defined, fun _ => ⟨zero, fun _ => rfl⟩, fun name h => ?_⟩
    cases h
  · obtain ⟨takes, fits⟩ := carries
    refine ⟨defined, fun _ => ⟨?_, fun none => ?_⟩, fun name h => ?_⟩
    · simp only [statement, Instr.ofOpcode, toInt_ofInt_of_fits fits]
      exact fits
    · simp only [statement, Instr.ofOpcode, Opcode.tagTakesOperand_tag, takes] at none
      cases none
    · cases h
  · obtain ⟨takes, fits⟩ := carries
    refine ⟨defined, fun h => ?_, fun other h => ?_⟩
    · cases h
    · cases h
      exact ⟨(Opcode.tagTakesOperand_tag op).trans takes, fits⟩

/-! ### The invariant -/

/-- The invariant of the tables. -/
structure Sound (s : State) : Prop where
  placed : ∀ (k : Nat) (statement : Statement),
    s.statements[k]? = some statement → statement.ip = k
  drafted : ∀ statement ∈ s.statements, statement.Drafted
  named : ∀ label ∈ s.labels, isIdentifier label.1 = true ∧ label.2 ≤ s.address
  distinct : (s.labels.map Prod.fst).Nodup

theorem Sound.append (hs : s.Sound) {statement : Statement} (atEnd : statement.ip = s.address)
    (drafted : statement.Drafted) : (s.append statement).Sound where
  placed := by
    intro k found h
    simp only [State.append, Array.getElem?_push] at h
    split at h
    · cases h
      rw [atEnd, ‹k = _›]
      rfl
    · exact hs.placed k found h
  drafted := by
    intro found h
    rcases Array.mem_push.mp h with old | rfl
    · exact hs.drafted found old
    · exact drafted
  named := by
    intro label h
    have bound := hs.named label h
    refine ⟨bound.1, Nat.le_trans bound.2 ?_⟩
    simp [State.append, address]
  distinct := hs.distinct

theorem Sound.addLabel (hs : s.Sound) (lineNo : Nat) {name : Text}
    (named : isIdentifier name = true) (unused : s.hasLabel name = false) :
    (s.addLabel lineNo name).Sound where
  placed := hs.placed
  drafted := hs.drafted
  named := by
    intro label h
    rcases List.mem_append.mp h with old | new
    · exact hs.named label old
    · rw [List.mem_singleton.mp new]
      exact ⟨named, Nat.le_refl _⟩
  distinct := by
    have fresh : name ∉ s.labels.map Prod.fst := by
      rw [← hasLabel_iff, unused]
      exact Bool.false_ne_true
    simp only [State.addLabel, List.map_append, List.map_cons, List.map_nil]
    rw [← List.concat_eq_append]
    exact hs.distinct.concat fresh

/-- One change keeps the invariant. -/
theorem Change.sound (h : Change s t) (hs : s.Sound) : t.Sound := by
  cases h with
  | setEquates equates => exact ⟨hs.placed, hs.drafted, hs.named, hs.distinct⟩
  | setMacros macros => exact ⟨hs.placed, hs.drafted, hs.named, hs.distinct⟩
  | define lineNo name named unused => exact hs.addLabel lineNo named unused
  | assemble lineNo words op operand carries =>
    exact hs.append (statement_ip s lineNo words op operand)
      (statement_drafted s lineNo words carries)

/-- Any number of changes keeps the invariant. -/
theorem Reaches.sound (h : Reaches s t) (hs : s.Sound) : t.Sound := by
  induction h with
  | refl => exact hs
  | tail _ change ih => exact change.sound ih

end State

/-! ### Programs -/

theorem ne_nil_of_isIdentifier {name : Text} (h : isIdentifier name = true) : name ≠ [] := by
  rintro rfl
  cases h

/-- The address of a statement of the program is its position. -/
theorem Reader.program_placed {r : Reader} (sound : r.state.Sound) {k : Nat}
    {statement : Statement} (h : r.program.statements[k]? = some statement) :
    statement.ip = k := by
  simp only [program, List.getElem?_toArray, List.getElem?_map, Array.getElem?_toList,
    Option.map_eq_some_iff] at h
  obtain ⟨draft, found, rfl⟩ := h
  rw [State.resolved_ip]
  exact sound.placed k draft found

/-- The labels of the program have identifiers as names and lie at its statements, once no label is
behind the last one. -/
theorem Reader.program_named {r : Reader} (sound : r.state.Sound)
    (settled : ∀ label ∈ r.state.labels, label.2 ≠ r.state.address) {name : Text} {address : Int}
    (h : (name, address) ∈ r.program.labels) :
    isIdentifier name = true ∧ 0 ≤ address ∧ address < r.program.size := by
  obtain ⟨⟨key, value⟩, found, pair⟩ := List.mem_map.mp h
  cases pair
  have bound := sound.named _ found
  have behind := settled _ found
  refine ⟨bound.1, Int.natCast_nonneg value, ?_⟩
  rw [r.size_program]
  exact Int.ofNat_lt.mpr (Nat.lt_of_le_of_ne bound.2 behind)

/-- The labels of the program have different names. -/
theorem Reader.program_distinct {r : Reader} (sound : r.state.Sound) :
    (r.program.labels.map Prod.fst).Nodup := by
  rw [r.names_program]
  exact sound.distinct

/-- The invariant makes a program well linked, once no label is behind the last statement and
every label that is used is defined. -/
theorem Reader.program_wellLinked {r : Reader} (sound : r.state.Sound)
    (settled : ∀ label ∈ r.state.labels, label.2 ≠ r.state.address)
    (resolvable : ∀ statement ∈ r.state.statements, r.state.Resolvable statement)
    (small : r.state.address < 2 ^ 31) : r.program.WellLinked where
  placed := fun _ _ => r.program_placed sound
  named := fun _ _ => r.program_named sound settled
  distinct := r.program_distinct sound
  linked := by
    intro statement h name link
    obtain ⟨draft, member, rfl⟩ := r.mem_program h
    rw [State.resolved_link] at link
    have drafted := (sound.drafted draft member).linked name link
    obtain ⟨address, found⟩ := State.exists_labelAddress? (resolvable draft member name link)
    have entry := State.mem_of_labelAddress? found
    -- an address below 2 ^ 31 survives as a 32-bit operand
    have below : address < 2 ^ 31 := Nat.lt_of_le_of_lt (sound.named _ entry).2 small
    have exact32 : (Int32.ofInt address).toInt = address :=
      Int32.toInt_ofInt_of_le (by omega) (by omega)
    refine ⟨ne_nil_of_isIdentifier drafted.2, ?_, ?_⟩
    · rw [State.resolved_tag]
      exact drafted.1
    · rw [State.resolved_operand link found, exact32]
      exact List.mem_map.mpr ⟨_, entry, rfl⟩
  literal := by
    intro statement h link
    obtain ⟨draft, member, rfl⟩ := r.mem_program h
    rw [State.resolved_link] at link
    rw [State.resolved_of_literal link]
    obtain ⟨⟨lower, upper⟩, zero⟩ := (sound.drafted draft member).literal link
    exact ⟨lower, upper, zero⟩

end Assembly

section Parsing

variable [Interpreter]

/-- The reading of an accepted source text: it comes to the end, with sound tables that make the
program. -/
theorem Assembler.exists_reading_of_parse {a : Assembler} {source : Text} {p : Program}
    (accepted : (a.parse source).2 = .ok p) :
    ∃ r : Reader, a.reader.readAll (Lines.ofText source).lines = (r, none) ∧
      (Lines.ofText source).overlong = false ∧ r.state.Sound ∧
      (∀ label ∈ r.state.labels, label.2 ≠ r.state.address) ∧
      (∀ statement ∈ r.state.statements, r.state.Resolvable statement) ∧ p = r.program := by
  obtain ⟨r, read, finished⟩ := (a.parse_eq_ok_iff source p).mp accepted
  obtain ⟨whole, -, settled, resolvable, program⟩ := (r.finish_eq_ok_iff _ p).mp finished
  have start : a.reader.state.Sound :=
    ⟨by simp [reader], by simp [reader], by simp [reader], by simp [reader]⟩
  have changes := a.reader.reaches_readAll (Lines.ofText source).lines
  rw [read] at changes
  exact ⟨r, read, whole, changes.sound start, settled, resolvable, program⟩

/-- An accepted source text is read into sound tables, and these make the program. -/
theorem Assembler.exists_reader_of_parse {a : Assembler} {source : Text} {p : Program}
    (accepted : (a.parse source).2 = .ok p) :
    ∃ r : Reader, r.state.Sound ∧ (∀ label ∈ r.state.labels, label.2 ≠ r.state.address) ∧
      (∀ statement ∈ r.state.statements, r.state.Resolvable statement) ∧ p = r.program := by
  obtain ⟨r, -, -, made⟩ := exists_reading_of_parse accepted
  exact ⟨r, made⟩

/-- **Accepted programs are well linked**, for all predefined equates and all source texts. -/
theorem Assembler.wellLinked_of_parse (a : Assembler) (source : Text) (p : Program)
    (accepted : (a.parse source).2 = .ok p) (small : p.size < 2 ^ 31) : p.WellLinked := by
  obtain ⟨r, sound, settled, resolvable, rfl⟩ := exists_reader_of_parse accepted
  rw [r.size_program] at small
  exact Reader.program_wellLinked sound settled resolvable small

end Parsing

/-! ### A loop whose body is a macro call -/

/-- The lines of a loop; the macro that it calls gets a label as argument. -/
def loopLines : List Text :=
  [".macro again target", "dec", "jnz target", ".endm", ".equ COUNT 0xFFFFFF",
   "start: push COUNT", "loop: again loop", "jmp start"]

attribute [local instance] Assembly.Expression.interpreter

/-- The program of the loop. -/
def loopProgram : Program where
  statements := #[
    { line := 6, ip := 0, words := ["push", "0xFFFFFF"], instr := .ofOpcode .push (-1) },
    { line := 2, ip := 1, words := ["dec"], instr := .ofOpcode .dec 0 },
    { line := 3, ip := 2, words := ["jnz", "loop"], instr := .ofOpcode .jnz 1,
      link := some (Text.ofString "loop") },
    { line := 8, ip := 3, words := ["jmp", "start"], instr := .ofOpcode .jmp 0,
      link := some (Text.ofString "start") }]
  labels := [("start", 0), ("loop", 1)]

theorem Assembler.wellLinked_of_parse_loop :
    (Assembler.parse {} (Text.join "\n" loopLines)).2 = .ok loopProgram ∧
      loopProgram.size < 2 ^ 31 ∧ loopProgram.WellLinked := by
  have accepted : (Assembler.parse {} (Text.join "\n" loopLines)).2 = .ok loopProgram := by
    decide +kernel
  have small : loopProgram.size < 2 ^ 31 := by decide
  exact ⟨accepted, small, wellLinked_of_parse {} _ loopProgram accepted small⟩

end StackMachine
