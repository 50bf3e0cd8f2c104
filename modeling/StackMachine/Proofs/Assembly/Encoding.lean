import StackMachine.Assembly.Expression.Eval
import StackMachine.Proofs.Assembly.CoreWriting
import StackMachine.Proofs.Assembly.WellLinked
import StackMachine.Proofs.Codec

/-!
# The listing of a program and its image

A listing shows the instructions of a program, and a machine executes their words. The two
agree wherever an operand was written as a number, for numbers are checked to have 24
bits. The address of a label is not checked: an operand that was written as a label agrees
with its word exactly if the label lies below `2 ^ 23`. Programs that are large enough to
break this are accepted, while the same address written as a number is refused.

## Main definitions

* `Core.behind`: a line behind instructions that do nothing.
* `Core.selfJump`: a jump to its own label.

## Main results

* `Assembly.Reader.program_defined`: the tags of accepted programs are defined.
* `Core.assemble_selfJump`: a jump to itself is accepted at every address.
* `Core.assemble_jump_ne_ok`, `Core.operandOf_decimal_of_large`: a jump to a number that does not
  fit is refused.
* `Program.WellLinked.decode?_of_literal`, `Program.WellLinked.decode?_iff_of_link`: when an
  instruction of a well-linked program is what its word decodes to.
* `Assembler.listing_agrees_iff`: where the listing agrees with the image.
-/

namespace StackMachine

open Assembly

/-- The tags of accepted programs are defined. -/
theorem Assembly.Reader.program_defined {r : Reader} (sound : r.state.Sound) :
    ∀ statement ∈ r.program.statements, (Opcode.ofTag? statement.instr.tag).isSome = true := by
  intro statement member
  obtain ⟨draft, found, rfl⟩ := r.mem_program member
  rw [State.resolved_tag]
  exact (sound.drafted draft found).defined

namespace Program

/-- The address of a label of a well-linked program is the only one that its name stands for. -/
theorem WellLinked.mem_labels_iff {p : Program} (linked : p.WellLinked) {name : Text}
    {address : Int} (entry : (name, address) ∈ p.labels) (other : Int) :
    (name, other) ∈ p.labels ↔ other = address := by
  constructor
  · intro found
    have same := List.inj_on_of_nodup_map linked.distinct found entry rfl
    exact (Prod.mk.inj same).2
  · rintro rfl
    exact entry

end Program

/-! ### Jumps over many instructions -/

namespace Core

/-- A line behind `n` instructions that do nothing. -/
def behind (n : Nat) (line : Line) : List Line :=
  (List.replicate n (Instruction.ofOpcode .nop 0)).map (Line.plain []) ++ [line]

theorem instructions_behind (n : Nat) (line : Line) :
    instructions 1 (behind n line) =
      (List.replicate n (Instruction.ofOpcode .nop 0)).mapIdx (fun k i => (1 + k, i)) ++
        line.instruction.toList.map (1 + n, ·) := by
  rw [behind, instructions_append, instructions_plain]
  simp [instructions]

theorem definitions_behind (n : Nat) (line : Line) :
    definitions 0 (behind n line) = line.labels.map fun l => (l.name, n) := by
  rw [behind, definitions_append 0 1, definitions_plain, instructions_plain]
  simp [definitions]

/-- An instruction of these lines does nothing, or is that of the last line. -/
theorem mem_instructions_behind {n : Nat} {line : Line} {lineNo : Nat} {i : Instruction}
    (h : (lineNo, i) ∈ instructions 1 (behind n line)) :
    i = .ofOpcode .nop 0 ∨ line.instruction = some i := by
  rw [instructions_behind] at h
  rcases List.mem_append.mp h with front | last
  · obtain ⟨k, inside, pair⟩ := List.mem_mapIdx.mp front
    simp only [List.getElem_replicate, Prod.mk.injEq] at pair
    exact .inl pair.2.symm
  · obtain ⟨j, instruction, pair⟩ := List.mem_map.mp last
    cases pair
    exact .inr (Option.mem_toList.mp instruction)

theorem fits_behind (n : Nat) {line : Line} (fits : Lines.fits line.text = true) :
    ∀ other ∈ behind n line, Lines.fits other.text = true := by
  intro other member
  rcases List.mem_append.mp member with front | last
  · obtain ⟨i, found, rfl⟩ := List.mem_map.mp front
    rw [List.eq_of_mem_replicate found]
    exact Line.fits_plain .nop (by decide)
  · rw [List.mem_singleton.mp last]
    exact fits

/-- The label of a jump to itself. -/
def selfName : Name :=
  ⟨"self", by decide, by decide⟩

/-- A jump to itself: `self: JMP self`. -/
def selfJump : Line :=
  Line.plain [⟨selfName, .none, .space⟩]
    ⟨.jmp, "JMP".toList, by decide,
      some ⟨.space, Gap.space_ne_nil, ⟨.name selfName, false⟩⟩, rfl⟩

theorem acceptable_selfJump (n : Nat) : Acceptable (behind n selfJump) where
  distinct := by
    rw [definitions_behind]
    simp [selfJump, Line.plain]
  defined := by
    intro lineNo i name member term
    rw [definitions_behind]
    rcases mem_instructions_behind member with rfl | last
    · cases term
    · cases last
      cases term
      simp [selfJump, Line.plain]
  followed := by
    intro name address member
    rw [definitions_behind] at member
    rw [instructions_behind]
    simp_all [selfJump, Line.plain]
  inRange := by
    intro lineNo i m member term
    rcases mem_instructions_behind member with rfl | last
    · cases term
    · cases last
      cases term

/-- A jump to itself is accepted at every address, and its operand is the address. -/
theorem assemble_selfJump [Interpreter] {n : Nat} (small : n + 1 < 2 ^ 31) :
    ∃ p, assemble (source (behind n selfJump)) = .ok p ∧ p.size = n + 1 ∧
      p.labels = [(selfName.text, (n : Int))] ∧
      ∃ statement, p.statements[n]? = some statement ∧
        statement.link = some selfName.text ∧ statement.instr.tag = Opcode.jmp.tag ∧
        statement.instr.operand.toInt = n := by
  have short : Lines.fits selfJump.text = true := by decide +kernel
  have fits := fits_behind n short
  have length : (instructions 1 (behind n selfJump)).length = n + 1 := by
    simp [instructions_behind, selfJump, Line.plain]
  obtain ⟨r, holds, resolvable, accepted⟩ :=
    exists_reader_of_acceptable fits (acceptable_selfJump n)
  have assembled := assembled_program holds resolvable (by omega)
  have last : (instructions 1 (behind n selfJump))[n]? =
      selfJump.instruction.map (1 + n, ·) := by
    rw [instructions_behind, List.getElem?_append_right (by simp)]
    simp [selfJump, Line.plain]
  obtain ⟨statement, found, becomes⟩ := assembled.statements n _ _ last
  obtain ⟨⟨target, entry, operand⟩, link⟩ := becomes.name selfName rfl
  have address : target = n := by
    rw [definitions_behind] at entry
    simpa [selfJump, Line.plain] using entry
  refine ⟨_, accepted, assembled.size.trans length, ?_, statement, found, link, becomes.tag, ?_⟩
  · rw [assembled.labels, definitions_behind]
    simp [selfJump, Line.plain]
  · rw [operand, address]

/-- A jump to a number that does not fit is refused, wherever it stands. -/
theorem assemble_jump_ne_ok [Interpreter] (n : Nat) {target : Int} (large : 2 ^ 23 ≤ target)
    (small : target < 2 ^ 31) (p : Program) :
    assemble (source (behind n (Line.plain [] (.ofOpcode .jmp target)))) ≠ .ok p := by
  have magnitude : target.natAbs < 10 ^ 10 := by omega
  have fits := fits_behind n (Line.fits_plain .jmp magnitude)
  rcases assemble_source_cases _ fits with ⟨taken, -⟩ | ⟨-, rejects⟩
  · obtain ⟨-, inRange⟩ := (taken_start_iff _).mp taken
    have member : (1 + n, Instruction.ofOpcode .jmp target) ∈
        instructions 1 (behind n (Line.plain [] (.ofOpcode .jmp target))) := by
      rw [instructions_behind]
      simp [Line.plain]
    have bounds := (Number.inRange_ofInt_iff target).mp (inRange _ _ _ member rfl)
    omega
  · exact rejects p

/-- The decimal of a number that does not fit is refused for its range, whatever the equates are. -/
theorem operandOf_decimal_of_large (equates : Dictionary Text) {n : Int} (large : 2 ^ 23 ≤ n)
    (small : n < 2 ^ 31) :
    operandOf equates (Text.ofString (Numeral.decimal n)) = .error (.operandRange n) := by
  rw [← Number.text_ofInt]
  have bracketless : (Number.ofInt n).text.head? ≠ some (.scalar '[') := by
    obtain ⟨g, rest, text, starts, -⟩ := (Number.ofInt n).exists_text
    simp only [startsValue, ne_eq, Bool.and_eq_true, decide_eq_true_eq] at starts
    simpa [text] using starts.2
  have number : number? (Number.ofInt n).text = some n := by
    have value := Number.value_ofInt n
    have fits : Literal.fits 64 n = true := (fits_64_iff n).mpr ⟨by omega, by omega⟩
    simp only [Number.ofInt, Number.value] at value
    rw [Number.ofInt, number?_decimal, value, if_pos fits]
  have unmarked : pattern? (Number.ofInt n).text = none := pattern?_decimal _ _
  have notBelow : ¬ n < Instr.operandMin := by
    simp only [Instr.operandMin]
    omega
  have above : ¬ n ≤ Instr.operandMax := by
    simp only [Instr.operandMax]
    omega
  rw [operandOf, if_neg bracketless, plainOperand_text, number]
  simp only [fitted_text, unmarked, if_neg notBelow, if_neg above, Option.isSome_none,
    Bool.false_and, Bool.false_eq_true, if_false]
  rfl

end Core

/-! ### The listing and the image -/

section Agreement

variable {p : Program} (linked : p.WellLinked) {statement : Statement}
  (member : statement ∈ p.statements)
  (defined : (Opcode.ofTag? statement.instr.tag).isSome = true)

include linked member defined

/-- An operand that was written as a number agrees with its word. -/
theorem Program.WellLinked.decode?_of_literal (literal : statement.link = none) :
    Instr.decode? statement.instr.encode = some statement.instr := by
  obtain ⟨lower, upper, zero⟩ := linked.literal statement member literal
  rw [Instr.decode?_encode_eq_some_iff defined, Instr.Encodable]
  split
  · simp only [Instr.operandMin, Instr.operandMax]
    omega
  · rename_i takesNone
    exact zero (by simpa using takesNone)

/-- An operand that was written as a label agrees with its word exactly if the address of the label
has 24 bits. -/
theorem Program.WellLinked.decode?_iff_of_link {name : Text} (link : statement.link = some name) :
    (name, statement.instr.operand.toInt) ∈ p.labels ∧
      (Instr.decode? statement.instr.encode = some statement.instr ↔
        statement.instr.operand.toInt ≤ 8388607) := by
  obtain ⟨-, takes, entry⟩ := linked.linked statement member name link
  obtain ⟨-, nonnegative, -⟩ := linked.named name _ entry
  refine ⟨entry, ?_⟩
  rw [Instr.decode?_encode_eq_some_iff defined, Instr.Encodable, if_pos takes]
  simp only [Instr.operandMin, Instr.operandMax]
  omega

end Agreement

/-- **Where the listing of an accepted program agrees with its image.** For all predefined equates
and all source texts, an instruction whose operand was not written as a label is what its word
decodes to, and one whose operand was written as a label is so exactly if the address of the label
is at most `8388607`. Nothing refuses a larger address: a jump to itself behind `n` instructions is
accepted and disagrees with its word, while a jump to the number `n` in its place is refused for
the range of its operand. -/
theorem Assembler.listing_agrees_iff [Interpreter] (a : Assembler) (source : Text) (p : Program)
    (accepted : (a.parse source).2 = .ok p) (small : p.size < 2 ^ 31) :
    (∀ statement ∈ p.statements,
      (statement.link = none →
        Instr.decode? statement.instr.encode = some statement.instr) ∧
      ∀ name, statement.link = some name →
        ∃ address, (∀ other, (name, other) ∈ p.labels ↔ other = address) ∧
          (Instr.decode? statement.instr.encode = some statement.instr ↔
            address ≤ 8388607)) ∧
    ∀ n : Nat, 8388607 < n → n + 1 < 2 ^ 31 →
      (∃ q statement, assemble (Core.source (Core.behind n Core.selfJump)) = .ok q ∧
        q.size = n + 1 ∧ q.labels = [(Core.selfName.text, (n : Int))] ∧
        q.statements[n]? = some statement ∧ statement.link = some Core.selfName.text ∧
        Instr.decode? statement.instr.encode ≠ some statement.instr) ∧
      (∀ q, assemble (Core.source (Core.behind n (.plain [] (.ofOpcode .jmp n)))) ≠ .ok q) ∧
      ∀ equates, operandOf equates (Text.ofString (Numeral.decimal n)) =
        .error (.operandRange n) := by
  obtain ⟨r, sound, settled, resolvable, rfl⟩ := exists_reader_of_parse accepted
  rw [r.size_program] at small
  have linked : r.program.WellLinked := Reader.program_wellLinked sound settled resolvable small
  refine ⟨fun statement member => ?_, fun n large below => ?_⟩
  · have defined := r.program_defined sound statement member
    refine ⟨linked.decode?_of_literal member defined, fun name link => ?_⟩
    obtain ⟨entry, agrees⟩ := linked.decode?_iff_of_link member defined link
    exact ⟨_, linked.mem_labels_iff entry, agrees⟩
  · refine ⟨?_, Core.assemble_jump_ne_ok n (by omega) (by omega),
      fun equates => Core.operandOf_decimal_of_large equates (by omega) (by omega)⟩
    obtain ⟨q, result, size, labels, statement, found, link, tag, operand⟩ :=
      Core.assemble_selfJump below
    refine ⟨q, statement, result, size, labels, found, link, fun agrees => ?_⟩
    have defined : (Opcode.ofTag? statement.instr.tag).isSome = true := by
      rw [tag, Opcode.ofTag?_tag]
      rfl
    have takes : Opcode.tagTakesOperand statement.instr.tag = true := by
      rw [tag]
      rfl
    have bounds := (Instr.decode?_encode_eq_some_iff defined).mp agrees
    rw [Instr.Encodable, if_pos takes, operand] at bounds
    simp only [Instr.operandMax] at bounds
    omega

/-! ### Operands written in many ways -/

/-- The lines of a source text whose operands are an equate between brackets, a complement that is
the argument of a macro, an expression, a character and a label. -/
def operandLines : List Text :=
  [".macro put value", "push value", ".endm", "start: push [MASK]", "put ~0x7FFFFF",
   "push $(2 * 3)", "push 'A'", "jmp start"]

attribute [local instance] Assembly.Expression.interpreter

/-- The program of these lines, with the equate `MASK` predefined as a pattern of 24 bits. -/
def operandProgram : Program where
  statements := #[
    { line := 4, ip := 0, words := ["push", "[MASK]"], instr := .ofOpcode .push (-1) },
    { line := 2, ip := 1, words := ["push", "~0x7FFFFF"], instr := .ofOpcode .push (-8388608) },
    { line := 6, ip := 2, words := ["push", "6"], instr := .ofOpcode .push 6 },
    { line := 7, ip := 3, words := ["push", "65"], instr := .ofOpcode .push 65 },
    { line := 8, ip := 4, words := ["jmp", "start"], instr := .ofOpcode .jmp 0,
      link := some (Text.ofString "start") }]
  labels := [("start", 0)]

theorem Assembler.listing_agrees_iff_operands :
    (Assembler.parse (Assembler.predefine {} "MASK" "0xFFFFFF")
        (Text.join "\n" operandLines)).2 = .ok operandProgram ∧
      operandProgram.size < 2 ^ 31 ∧
      (∀ statement ∈ operandProgram.statements, statement.link = none →
        Instr.decode? statement.instr.encode = some statement.instr) ∧
      ∃ q statement, assemble (Core.source (Core.behind 8388608 Core.selfJump)) = .ok q ∧
        q.statements[8388608]? = some statement ∧
        Instr.decode? statement.instr.encode ≠ some statement.instr := by
  have accepted : (Assembler.parse (Assembler.predefine {} "MASK" "0xFFFFFF")
      (Text.join "\n" operandLines)).2 = .ok operandProgram := by
    decide +kernel
  have small : operandProgram.size < 2 ^ 31 := by decide
  obtain ⟨agrees, far⟩ := listing_agrees_iff _ _ operandProgram accepted small
  obtain ⟨⟨q, statement, result, -, -, found, -, differs⟩, -⟩ :=
    far 8388608 (by decide) (by decide)
  exact ⟨accepted, small, fun statement member => (agrees statement member).1,
    q, statement, result, found, differs⟩

end StackMachine
