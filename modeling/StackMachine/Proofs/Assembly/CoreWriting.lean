import StackMachine.Proofs.Assembly.CoreCorrectness

/-!
# Instructions written in the core language

Every operation and operand can be written as a line of the core language: the mnemonic
in capitals, and one space before the decimal of the operand. The written form is the
text that listings show, and the line is assembled to the same operation and operand.

## Main definitions

* `Core.Digits.ofNat`, `Core.Number.ofInt`: the decimal of a number.
* `Core.Gap.none`, `Core.Gap.space`: the blanks of listings.
* `Core.Instruction.ofOpcode`: an operation and an operand as they are written.
* `Core.Line.plain`: a line that holds an instruction and nothing else.

## Main results

* `Core.Number.text_ofInt`, `Core.Number.value_ofInt`: decimals are written and read alike.
* `Core.Instruction.text_ofOpcode`: the written form is that of listings.
* `Core.Instruction.instr_draft_ofOpcode`: operation and operand come back.
* `Core.assemble_unlabelled`: lines without labels and names are accepted.
-/

namespace StackMachine

namespace Core

open Assembly

/-! ### Decimals -/

/-- The decimal digits of a number. -/
def decimalDigits (n : Nat) : List (Digit 10) :=
  if small : n < 10 then [⟨⟨n, small⟩, false⟩]
  else decimalDigits (n / 10) ++ [⟨⟨n % 10, Nat.mod_lt n (by decide)⟩, false⟩]

theorem map_char_decimalDigits (n : Nat) :
    (decimalDigits n).map Digit.char = Nat.toDigits 10 n := by
  induction n using decimalDigits.induct with
  | case1 n small => simp [decimalDigits, small, Digit.char, Nat.toDigits_of_lt_base]
  | case2 n large ih =>
    rw [decimalDigits, dif_neg large, List.map_append, ih,
      Nat.toDigits_of_base_le (by decide) (Nat.not_lt.mp large)]
    simp [Digit.char]

theorem foldl_decimalDigits (n : Nat) :
    (decimalDigits n).foldl (fun m d => m * 10 + d.value.val) 0 = n := by
  induction n using decimalDigits.induct with
  | case1 n small => simp [decimalDigits, small]
  | case2 n large ih =>
    rw [decimalDigits, dif_neg large, List.foldl_append, ih]
    simp only [List.foldl_cons, List.foldl_nil]
    omega

theorem decimalDigits_ne_nil (n : Nat) : decimalDigits n ≠ [] := by
  intro empty
  have digits := map_char_decimalDigits n
  rw [empty] at digits
  exact Nat.toDigits_ne_nil digits.symm

/-- The decimal of a natural number. -/
def Digits.ofNat (n : Nat) : Digits 10 :=
  ⟨decimalDigits n, decimalDigits_ne_nil n⟩

theorem Digits.text_ofNat (n : Nat) :
    (Digits.ofNat n).text = (Nat.toDigits 10 n).map Glyph.scalar := by
  rw [← map_char_decimalDigits, List.map_map]
  rfl

theorem Digits.value_ofNat (n : Nat) : (Digits.ofNat n).value = n := by
  rw [Digits.value_eq]
  exact foldl_decimalDigits n

namespace Number

/-- The decimal of an integer. -/
def ofInt (n : Int) : Number :=
  .decimal (if n < 0 then .minus else .unsigned) (.ofNat n.natAbs)

/-- The decimal of an integer is written as listings show it. -/
theorem text_ofInt (n : Int) : (ofInt n).text = Text.ofString (Numeral.decimal n) := by
  rw [ofInt, Number.text, Digits.text_ofNat, Text.ofString, Numeral.decimal, Numeral.signed,
    String.toList_ofList]
  split <;> rfl

/-- The decimal of an integer has the value of the integer. -/
theorem value_ofInt (n : Int) : (ofInt n).value = n := by
  rw [ofInt, Number.value, Digits.value_ofNat]
  split
  · simp only [Sign.apply]
    omega
  · simp only [Sign.apply]
    omega

theorem inRange_ofInt_iff (n : Int) : (ofInt n).InRange ↔ -2 ^ 23 ≤ n ∧ n ≤ 2 ^ 23 - 1 := by
  have value := value_ofInt n
  simp only [ofInt, Number.value] at value
  rw [ofInt, InRange, value]

theorem signed_ofInt {n : Int} (lower : -2 ^ 23 ≤ n) (upper : n ≤ 2 ^ 23 - 1) :
    (ofInt n).signed = n := by
  rw [signed, value_ofInt]
  exact Int.bmod_eq_of_le (by omega) (by omega)

end Number

/-! ### Gaps -/

namespace Gap

theorem blank_nil : ∀ g ∈ ([] : Text), g = .scalar ' ' ∨ g = .scalar '\t' := by
  simp

theorem blank_space : ∀ g ∈ Text.ofString " ", g = .scalar ' ' ∨ g = .scalar '\t' := by
  decide

/-- No blanks. -/
def none : Gap :=
  ⟨[], blank_nil⟩

/-- One space. -/
def space : Gap :=
  ⟨" ", blank_space⟩

@[simp] theorem text_none : none.text = [] :=
  rfl

@[simp] theorem text_space : space.text = [.scalar ' '] :=
  rfl

theorem space_ne_nil : space.text ≠ [] := by
  simp

end Gap

/-! ### Instructions -/

namespace Instruction

/-- An operation and an operand as they are written; an operation without operand leaves the
operand out. -/
def ofOpcode (op : Opcode) (operand : Int) : Instruction where
  op := op
  letters := op.mnemonic.toList
  spelled := by cases op <;> decide
  argument :=
    if op.takesOperand then
      some ⟨.space, Gap.space_ne_nil, ⟨.number (.ofInt operand), false⟩⟩
    else none
  arity := by split <;> simp_all

variable (op : Opcode) (operand : Int)

theorem op_ofOpcode : (ofOpcode op operand).op = op :=
  rfl

theorem term_ofOpcode :
    (ofOpcode op operand).term =
      if op.takesOperand then some (.number (.ofInt operand)) else none := by
  unfold ofOpcode term
  dsimp only
  split <;> rfl

/-- The written form of an instruction is that of listings. -/
theorem text_ofOpcode (operand : Int32) :
    (ofOpcode op operand.toInt).text = Text.ofString (Instr.ofOpcode op operand).text := by
  simp only [text, mnemonic, ofOpcode, Instr.text, Instr.ofOpcode, Opcode.tagName_tag,
    Opcode.tagTakesOperand_tag]
  split
  · simp [Argument.text, Operand.text, Term.text, Number.text_ofInt, Text.ofString]
  · simp [Text.ofString]

/-- The draft of a written instruction holds the operation and the operand. -/
theorem instr_draft_ofOpcode (lineNo address : Nat) (lower : -2 ^ 23 ≤ operand)
    (upper : operand ≤ 2 ^ 23 - 1) :
    ((ofOpcode op operand).draft lineNo address).instr =
      .ofOpcode op (if op.takesOperand then Int32.ofInt operand else 0) := by
  cases takes : op.takesOperand with
  | false => simp [draft, term_ofOpcode, op_ofOpcode, takes]
  | true => simp [draft, term_ofOpcode, op_ofOpcode, takes, Number.signed_ofInt lower upper]

end Instruction

/-! ### Lines -/

/-- A line that holds an instruction behind some labels, and nothing else. -/
def Line.plain (labels : List Label) (i : Instruction) : Line :=
  ⟨.none, labels, some i, .none, none⟩

/-- An empty line. -/
def Line.blank : Line :=
  ⟨.none, [], none, .none, none⟩

theorem Line.text_plain (labels : List Label) (i : Instruction) :
    (Line.plain labels i).text = labels.flatMap Label.text ++ i.text := by
  simp [Line.text, Line.body, Line.ending, Line.plain]

theorem instructions_plain (lineNo : Nat) (is : List Instruction) :
    instructions lineNo (is.map (Line.plain [])) = is.mapIdx fun k i => (lineNo + k, i) := by
  induction is generalizing lineNo with
  | nil => rfl
  | cons i is ih =>
    rw [List.map_cons, instructions, ih, List.mapIdx_cons]
    simp [Line.plain, Nat.add_assoc, Nat.add_comm 1]

theorem definitions_plain (address : Nat) (is : List Instruction) :
    definitions address (is.map (Line.plain [])) = [] := by
  induction is generalizing address with
  | nil => rfl
  | cons i is ih => simp [definitions, ih, Line.plain]

/-- Lines without labels whose operands are literals in their ranges are accepted, and every
instruction is assembled as it is written. -/
theorem assemble_unlabelled [Interpreter] {lines : List Line}
    (fits : ∀ line ∈ lines, Lines.fits line.text = true) (unlabelled : definitions 0 lines = [])
    (literal : ∀ entry ∈ instructions 1 lines, ∀ term, entry.2.term = some term →
      ∃ n : Number, term = .number n ∧ n.InRange) :
    ∃ p, assemble (source lines) = .ok p ∧ p.labels = [] ∧
      p.statements.toList =
        (instructions 1 lines).mapIdx fun k entry => entry.2.draft entry.1 k := by
  have acceptable : Acceptable lines := {
    distinct := by simp [unlabelled]
    defined := by
      intro lineNo i name member term
      obtain ⟨n, same, -⟩ := literal _ member _ term
      cases same
    followed := by simp [unlabelled]
    inRange := by
      intro lineNo i n member term
      obtain ⟨m, same, inRange⟩ := literal _ member _ term
      cases same
      exact inRange }
  obtain ⟨r, holds, -, accepted⟩ := exists_reader_of_acceptable fits acceptable
  refine ⟨r.program, accepted, by simp [Reader.program, holds.labels, unlabelled], ?_⟩
  have linked : ∀ statement ∈ r.state.statements.toList,
      r.state.resolved statement = statement := by
    intro statement member
    obtain ⟨k, lineNo, i, found, rfl⟩ := holds.mem_statements.mp (Array.mem_def.mpr member)
    refine State.resolved_of_literal (Option.eq_none_iff_forall_ne_some.mpr fun text link => ?_)
    obtain ⟨name, term, -⟩ := i.exists_name_of_link link
    obtain ⟨n, same, -⟩ := literal _ (List.mem_of_getElem? found) _ term
    cases same
  rw [← holds.statements]
  simpa [Reader.program] using List.map_congr_left linked

/-! ### Lines that can be read -/

theorem byteSize_le (t : Text) : t.byteSize ≤ 4 * t.length := by
  have bound : ∀ n : Nat, t.foldl (fun n g => n + g.byteSize) n ≤ n + 4 * t.length := by
    induction t with
    | nil => simp
    | cons g t ih =>
      intro n
      have first : g.byteSize ≤ 4 := by
        cases g with
        | scalar c => exact c.utf8Size_le_four
        | stray b => simp [Glyph.byteSize]
      have rest := ih (n + g.byteSize)
      simp only [List.foldl_cons, List.length_cons]
      omega
  simpa [Text.byteSize] using bound 0

theorem length_decimal_le {n : Int} (small : n.natAbs < 10 ^ 10) :
    (Numeral.decimal n).toList.length ≤ 11 := by
  have digits : (Nat.toDigits 10 n.natAbs).length ≤ 10 :=
    (Nat.length_toDigits_le_iff (by decide) (by decide)).mpr small
  rw [Numeral.decimal, Numeral.signed, String.toList_ofList]
  split
  · simp only [List.length_cons]
    omega
  · omega

theorem Instruction.length_text_ofOpcode (op : Opcode) {operand : Int}
    (small : operand.natAbs < 10 ^ 10) : (ofOpcode op operand).text.length ≤ 17 := by
  have name : op.mnemonic.toList.length ≤ 5 := by cases op <;> decide
  have number := length_decimal_le small
  simp only [text, mnemonic, ofOpcode, List.length_append, List.length_map]
  split
  · have argument : (Argument.text ⟨.space, Gap.space_ne_nil,
        ⟨.number (.ofInt operand), false⟩⟩).length =
          1 + (Numeral.decimal operand).toList.length := by
      simp [Argument.text, Operand.text, Term.text, Number.text_ofInt, Text.ofString]
      omega
    simp only [Option.map_some, Option.getD_some, argument]
    omega
  · simp only [Option.map_none, Option.getD_none, List.length_nil]
    omega

theorem Line.fits_plain (op : Opcode) {operand : Int} (small : operand.natAbs < 10 ^ 10) :
    Lines.fits (Line.plain [] (.ofOpcode op operand)).text = true := by
  have length := Instruction.length_text_ofOpcode op small
  have size := byteSize_le (Instruction.ofOpcode op operand).text
  rw [Line.text_plain]
  simp only [List.flatMap_nil, List.nil_append, Lines.fits, Lines.limit, decide_eq_true_eq]
  omega

end Core

end StackMachine
