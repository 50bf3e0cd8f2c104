import StackMachine.Proofs.Sessions

/-!
# Where the statements of a program are placed

An image holds the words of a program one behind the other, so that a loaded statement is
the instruction at its position in the program. Its line and its source are looked up by
its address. The two are the same in a program without gaps, and only there: where an
address is skipped, every later statement is loaded below its address, and what is told of
an address mixes the instruction of one statement with the line of another.

## Main definitions

* `Instr.Representable`: instructions that survive in a word, but for an operand that does not
  count.
* `Session.InstructionInfo.Describes`: what is told is about a given instruction.
* `Session.Places`: what is told at the address of a statement is about that statement.

## Main results

* `Program.Ordered.add_le_ip`: statements are at least as far apart as their positions.
* `Session.exists_instruction_at`: what is told at the position of a statement.
* `Session.load_places_iff_dense`: statements are placed at their addresses exactly if there are no
  gaps.
-/

namespace StackMachine

/-! ### Instructions in words -/

/-- The tag is defined, and an operand that counts has 24 bits. -/
def Instr.Representable (i : Instr) : Prop :=
  (Opcode.ofTag? i.tag).isSome = true ∧
    (Opcode.tagTakesOperand i.tag = true →
      operandMin ≤ i.operand.toInt ∧ i.operand.toInt ≤ operandMax)

instance : DecidablePred Instr.Representable := fun i =>
  inferInstanceAs (Decidable ((Opcode.ofTag? i.tag).isSome = true ∧
    (Opcode.tagTakesOperand i.tag = true →
      Instr.operandMin ≤ i.operand.toInt ∧ i.operand.toInt ≤ Instr.operandMax)))

/-- A representable instruction comes back from its word, without an operand that does not count. -/
theorem Instr.Representable.decode?_encode {i : Instr} (h : i.Representable) :
    decode? i.encode =
      some ⟨i.tag, if Opcode.tagTakesOperand i.tag then i.operand else 0⟩ := by
  obtain ⟨defined, fits⟩ := h
  obtain ⟨op, found⟩ := Option.isSome_iff_exists.mp defined
  rw [Instr.decode?_encode found, ← tagTakesOperand_eq found]
  cases takes : Opcode.tagTakesOperand i.tag with
  | false => rfl
  | true =>
    have same : Int32.ofInt (signExtend i.operand.toInt) = i.operand := by
      rw [(signExtend_eq_self_iff _).mpr (fits takes), Int32.ofInt_toInt]
    rw [if_pos rfl, if_pos rfl, same]

namespace Program

variable {p : Program}

/-- Statements in the order of their addresses are at least as far apart as their positions. -/
theorem Ordered.add_le_ip (ordered : p.Ordered) {j k : Nat} {a b : Statement} (behind : j ≤ k)
    (first : p.statements[j]? = some a) (second : p.statements[k]? = some b) :
    a.ip + (k - j : Nat) ≤ b.ip := by
  induction k, behind using Nat.le_induction generalizing b with
  | base =>
    rw [first] at second
    cases second
    omega
  | succ k behind ih =>
    obtain ⟨inside, -⟩ := Array.getElem?_eq_some_iff.mp second
    have between : p.statements[k]? = some p.statements[k] := Array.getElem?_eq_getElem (by omega)
    have near := ih between
    have apart := ordered.increasing k (k + 1) _ b (by omega) between second
    omega

/-- There are no gaps if all addresses are below the number of statements. -/
theorem Ordered.dense_of_lt (ordered : p.Ordered)
    (below : ∀ statement ∈ p.statements, statement.ip < p.statements.size) : p.Dense := by
  intro k statement found
  obtain ⟨inside, -⟩ := Array.getElem?_eq_some_iff.mp found
  have begins : p.statements[0]? = some p.statements[0] := Array.getElem?_eq_getElem (by omega)
  have ends : p.statements[p.statements.size - 1]? = some p.statements[p.statements.size - 1] :=
    Array.getElem?_eq_getElem (by omega)
  have lowest := ordered.placed _ (Array.mem_of_getElem? begins)
  have highest := below _ (Array.mem_of_getElem? ends)
  -- there is room for the statements before it and for those behind it, and no more
  have lower := ordered.add_le_ip (Nat.zero_le k) begins found
  have upper := ordered.add_le_ip (Nat.le_sub_one_of_lt inside) found ends
  omega

end Program

namespace Session

/-! ### What is told about a statement -/

/-- What is told is about an instruction: it is valid and has its tag and its operand, or none if
the operand does not count. -/
structure InstructionInfo.Describes (info : InstructionInfo) (i : Instr) : Prop where
  valid : info.valid = true
  tag : info.tag = i.tag
  operand : info.operand = if Opcode.tagTakesOperand i.tag then i.operand else 0

/-- What is told at the address of a statement is about its instruction, its line and its source. -/
def Places (s : Session) (statement : Statement) : Prop :=
  ∃ info, s.instruction statement.ip = .ok info ∧ info.Describes statement.instr ∧
    info.line = statement.line ∧ info.source = Text.join " " statement.words

variable {p : Program}

theorem describes_describe (s : Session) (ip : Int) {i : Instr} (h : i.Representable) :
    (s.describe ip i.encode).Describes i := by
  have decodes := h.decode?_encode
  exact ⟨by simp [describe, decodes], i.wordTag_encode, by simp [describe, decodes]⟩

/-- A loaded statement is the instruction at its position, with the line of whatever statement has
the position as its address. -/
theorem exists_instruction_at (s : Session) {k : Nat} {statement : Statement}
    (found : p.statements[k]? = some statement) (representable : statement.instr.Representable) :
    ∃ info, (s.load p).instruction k = .ok info ∧ info.Describes statement.instr ∧
      info.line = p.lineAt k ∧
      info.source = ((p.at? k).map fun other => Text.join " " other.words).getD [] := by
  have word : (s.load p).words[(k : Int).toNat]? = some statement.instr.encode := by
    show p.image[(k : Int).toNat]? = _
    rw [Int.toNat_natCast, Program.image, Array.getElem?_map, found, Option.map_some]
  have told := ((s.load p).instruction_eq_ok_iff k _).mpr ⟨Int.natCast_nonneg k, _, word, rfl⟩
  exact ⟨_, told, describes_describe _ _ representable, rfl, rfl⟩

/-- **Statements are placed at their addresses exactly if there are no gaps.** Take a program whose
statements are in the order of their addresses and can be encoded, and load it into any session.
Then every statement is the instruction at its position, with the line of whatever statement has
that position as its address; and what is told at the address of every statement is about that
statement, with its own line and source, exactly if the address of every statement is its
position. -/
theorem load_places_iff_dense (s : Session) (ordered : p.Ordered)
    (representable : ∀ statement ∈ p.statements, statement.instr.Representable) :
    (∀ (k : Nat) (statement : Statement), p.statements[k]? = some statement →
      ∃ info, (s.load p).instruction k = .ok info ∧ info.Describes statement.instr ∧
        info.line = p.lineAt k) ∧
    ((∀ statement ∈ p.statements, (s.load p).Places statement) ↔ p.Dense) := by
  refine ⟨?_, ?_, ?_⟩
  · intro k statement found
    obtain ⟨info, told, describes, line, -⟩ :=
      s.exists_instruction_at found (representable _ (Array.mem_of_getElem? found))
    exact ⟨info, told, describes, line⟩
  · intro places
    refine ordered.dense_of_lt fun statement member => ?_
    obtain ⟨info, told, -⟩ := places statement member
    obtain ⟨-, inside⟩ := ((s.load p).exists_instruction_iff _).mp ⟨info, told⟩
    have size : (s.load p).words.size = p.statements.size := Array.size_map ..
    rwa [size] at inside
  · intro dense statement member
    obtain ⟨k, inside, rfl⟩ := Array.getElem_of_mem member
    have found : p.statements[k]? = some p.statements[k] := Array.getElem?_eq_getElem inside
    have place := dense k _ found
    have listed := Program.at?_of_placed found place
    obtain ⟨info, told, describes, line, source⟩ :=
      s.exists_instruction_at found (representable _ member)
    refine ⟨info, place ▸ told, describes, line.trans ?_, source.trans ?_⟩
    · rw [Program.lineAt, listed]
    · rw [listed]
      rfl

/-- A push, a duplication and a halt with some addresses skipped behind the push; the duplication
has an operand that does not count. -/
private def listing (skipped : Nat) : Program where
  statements := #[
    { line := 1, ip := 0, words := ["push", "1"], instr := .ofOpcode .push 1 },
    { line := 3, ip := skipped + 1, words := ["dup"], instr := .ofOpcode .dup 9 },
    { line := 4, ip := skipped + 2, words := ["halt"], instr := .ofOpcode .halt 0 }]

/-- Without a gap the duplication is told of at its address. -/
theorem load_places_iff_dense_listing :
    (listing 0).Ordered ∧ (listing 0).Dense ∧
    ((new {}).load (listing 0)).Places
      { line := 3, ip := 1, words := ["dup"], instr := .ofOpcode .dup 9 } := by
  have ordered : (listing 0).Ordered :=
    Program.ordered_of_pairwise (by decide) (by decide)
  have dense : (listing 0).Dense := ordered.dense_of_lt (by decide)
  obtain ⟨-, places⟩ := load_places_iff_dense (new {}) ordered (by decide)
  exact ⟨ordered, dense, places.mpr dense _ (by simp [listing])⟩

/-- With a gap the halt is told of at the address of the duplication, with the line of the
duplication, and nothing is told at its own. -/
theorem load_misplaces_listing :
    (listing 1).Ordered ∧
    (∀ statement ∈ (listing 1).statements, statement.instr.Representable) ∧
    (¬∀ statement ∈ (listing 1).statements, ((new {}).load (listing 1)).Places statement) ∧
    (((new {}).load (listing 1)).instruction 2).toOption.map
      (fun info => (info.text, info.line, info.source)) =
        some ("HALT", (3 : Int), Text.ofString "dup") ∧
    ((new {}).load (listing 1)).instruction 3 = .error ⟨3⟩ := by
  have ordered : (listing 1).Ordered :=
    Program.ordered_of_pairwise (by decide) (by decide)
  have missing : ((new {}).load (listing 1)).instruction 3 = .error ⟨3⟩ := by decide +kernel
  refine ⟨ordered, by decide, fun places => ?_, by decide +kernel, missing⟩
  obtain ⟨info, told, -⟩ :=
    places { line := 4, ip := 3, words := ["halt"], instr := .ofOpcode .halt 0 }
      (by simp [listing])
  rw [missing] at told
  cases told

end Session

end StackMachine
