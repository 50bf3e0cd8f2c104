import Mathlib.Data.Nat.Digits.Lemmas
import StackMachine.Proofs.Assembly.CoreLanguage

/-!
# The words of the core language

What the assembler makes of a literal, of a name and of a mnemonic. A literal is an
operand exactly if it is in its range, and then the operand is its signed value; a name
is always taken for a label.

## Main results

* `Core.plainOperand_number`, `Core.plainOperand_number_of_not_inRange`: literals as operands.
* `Core.plainOperand_name`: names as operands.
* `Core.operandOf_text`: brackets make no difference.
* `Core.ofMnemonic?_mnemonic`: a mnemonic names its operation in any letter case.
-/

namespace StackMachine

namespace Core

open Assembly

/-! ### Glyphs of words -/

/-- A glyph that can stand in a word: it is no blank, and it neither ends a word nor is replaced
before words are cut. -/
def inWord : Glyph → Bool
  | .scalar c => !(Glyph.scalar c).isBlank && c ≠ ':' && c ≠ ';' && c ≠ '\'' && c ≠ '$'
  | .stray _ => false

theorem isAlpha_bounds {c : Char} (h : c.isAlpha = true) :
    (65 ≤ c.toNat ∧ c.toNat ≤ 90) ∨ (97 ≤ c.toNat ∧ c.toNat ≤ 122) := by
  rcases Bool.or_eq_true_iff.mp h with upper | lower
  · exact .inl (of_decide_eq_true upper)
  · obtain ⟨low, high⟩ := Bool.and_eq_true_iff.mp lower
    exact .inr ⟨of_decide_eq_true low, of_decide_eq_true high⟩

theorem isAlphanum_bounds {c : Char} (h : c.isAlphanum = true) :
    (48 ≤ c.toNat ∧ c.toNat ≤ 57) ∨ (65 ≤ c.toNat ∧ c.toNat ≤ 90) ∨
      (97 ≤ c.toNat ∧ c.toNat ≤ 122) := by
  rcases Bool.or_eq_true_iff.mp h with alpha | digit
  · exact .inr (isAlpha_bounds alpha)
  · simp only [Char.isDigit, Bool.and_eq_true, decide_eq_true_eq, ge_iff_le,
      UInt32.le_iff_toNat_le] at digit
    exact .inl digit

theorem ne_of_isAlphanum {c d : Char} (h : c.isAlphanum = true) (hd : d.isAlphanum = false) :
    c ≠ d := by
  rintro rfl
  rw [h] at hd
  cases hd

theorem inWord_of_isAlphanum {c : Char} (h : c.isAlphanum = true) : inWord (.scalar c) = true := by
  have bounds := isAlphanum_bounds h
  have solid : (Glyph.scalar c).isBlank = false := by
    simp only [Glyph.isBlank, Bool.or_eq_false_iff, Bool.and_eq_false_iff, decide_eq_false_iff_not,
      beq_eq_false_iff_ne]
    omega
  have colon : c ≠ ':' := ne_of_isAlphanum h (by decide)
  have semicolon : c ≠ ';' := ne_of_isAlphanum h (by decide)
  have quote : c ≠ '\'' := ne_of_isAlphanum h (by decide)
  have dollar : c ≠ '$' := ne_of_isAlphanum h (by decide)
  simp [inWord, solid, colon, semicolon, quote, dollar]

theorem inWord_of_continuesIdentifier {g : Glyph} (h : continuesIdentifier g = true) :
    inWord g = true := by
  cases g with
  | stray b => cases h
  | scalar c =>
    simp only [continuesIdentifier, Bool.or_eq_true, decide_eq_true_eq] at h
    rcases h with (alphanum | rfl) | rfl
    · exact inWord_of_isAlphanum alphanum
    · decide
    · decide

theorem continuesIdentifier_of_starts {g : Glyph} (h : startsIdentifier g = true) :
    continuesIdentifier g = true := by
  cases g with
  | stray b => cases h
  | scalar c =>
    simp only [startsIdentifier, continuesIdentifier, Char.isAlphanum, Bool.or_eq_true,
      decide_eq_true_eq] at h ⊢
    tauto

/-! ### Names -/

namespace Name

theorem exists_text (n : Name) :
    ∃ g rest, n.text = g :: rest ∧ startsIdentifier g = true ∧
      ∀ k ∈ rest, continuesIdentifier k = true := by
  have identifier := n.identifier
  cases h : n.text with
  | nil =>
    rw [h] at identifier
    cases identifier
  | cons g rest =>
    rw [h] at identifier
    simp only [isIdentifier, Bool.and_eq_true, List.all_eq_true] at identifier
    exact ⟨g, rest, rfl, identifier.1, identifier.2⟩

theorem inWord (n : Name) : ∀ g ∈ n.text, inWord g = true := by
  obtain ⟨first, rest, text, starts, continues⟩ := n.exists_text
  rw [text, List.forall_mem_cons]
  refine ⟨inWord_of_continuesIdentifier (continuesIdentifier_of_starts starts), fun g hg => ?_⟩
  exact inWord_of_continuesIdentifier (continues g hg)

theorem text_ne_nil (n : Name) : n.text ≠ [] := by
  obtain ⟨g, rest, text, -⟩ := n.exists_text
  simp [text]

end Name

/-! ### Digits -/

/-- The bases of literals. -/
abbrev IsBase (base : Nat) : Prop :=
  base = 2 ∨ base = 10 ∨ base = 16

section Digits

variable {base : Nat}

theorem digit?_char (marked : IsBase base) (d : Digit base) :
    Literal.digit? base (.scalar d.char) = some d.value.val := by
  obtain ⟨value, capital⟩ := d
  rcases marked with rfl | rfl | rfl <;> revert value capital <;> decide

theorem isAlphanum_char (marked : IsBase base) (d : Digit base) :
    d.char.isAlphanum = true := by
  obtain ⟨value, capital⟩ := d
  rcases marked with rfl | rfl | rfl <;> revert value capital <;> decide

theorem isDigit_char (d : Digit 10) : d.char.isDigit = true := by
  obtain ⟨value, capital⟩ := d
  revert value capital
  decide

theorem digits?_map (marked : IsBase base) (start : Nat)
    (ds : List (Digit base)) :
    Literal.digits? base start (ds.map fun d => .scalar d.char) =
      some (ds.foldl (fun n d => n * base + d.value.val) start) := by
  induction ds generalizing start with
  | nil => rfl
  | cons d ds ih => simp [Literal.digits?, digit?_char marked, ih]

theorem Digits.value_eq (ds : Digits base) :
    ds.value = ds.list.foldl (fun n d => n * base + d.value.val) 0 := by
  simp only [Digits.value, Nat.ofDigits_eq_foldr, List.map_reverse, List.foldr_reverse,
    List.foldl_map, Nat.cast_id]
  congr 1
  funext n d
  ring

theorem natural?_text (marked : IsBase base) (ds : Digits base) :
    Literal.natural? base ds.text = some ds.value := by
  have nonempty : ds.text.isEmpty = false := by simpa [Digits.text] using ds.nonempty
  rw [Literal.natural?, nonempty, Digits.value_eq]
  exact digits?_map marked 0 ds.list

theorem Digits.exists_text (ds : Digits base) :
    ∃ (d : Digit base) (rest : List (Digit base)),
      ds.text = .scalar d.char :: rest.map fun d => .scalar d.char := by
  obtain ⟨d, rest, list⟩ := List.exists_cons_of_ne_nil ds.nonempty
  exact ⟨d, rest, by simp [Digits.text, list]⟩

end Digits

/-! ### Literals -/

theorem pattern?_eq_none {word : Text}
    (h : ∀ m rest, word = .scalar '0' :: .scalar m :: rest → m ∉ ['x', 'X', 'b', 'B']) :
    pattern? word = none := by
  unfold pattern?
  split
  · rename_i m rest
    have unmarked := h m rest rfl
    simp only [List.mem_cons, List.not_mem_nil, or_false, not_or] at unmarked
    simp [unmarked]
  · rfl

theorem pattern?_decimal (sign : Sign) (digits : Digits 10) :
    pattern? (sign.text ++ digits.text) = none := by
  refine pattern?_eq_none fun m rest h => ?_
  -- the second glyph of a decimal without sign is a digit
  cases sign with
  | plus => cases h
  | minus => cases h
  | unsigned =>
    have member : Glyph.scalar m ∈ digits.text := by
      rw [show digits.text = _ from h]
      simp
    simp only [Digits.text, List.mem_map, Glyph.scalar.injEq] at member
    obtain ⟨d, -, rfl⟩ := member
    have digit := isDigit_char d
    intro marked
    simp only [List.mem_cons, List.not_mem_nil, or_false] at marked
    rcases marked with mark | mark | mark | mark <;> rw [mark] at digit <;> cases digit

theorem takeSign_decimal (sign : Sign) (digits : Digits 10) :
    Literal.withSign (Literal.takeSign (sign.text ++ digits.text)).1 digits.value =
        sign.apply digits.value ∧
      (Literal.takeSign (sign.text ++ digits.text)).2 = digits.text := by
  cases sign with
  | plus => exact ⟨rfl, rfl⟩
  | minus => exact ⟨rfl, rfl⟩
  | unsigned =>
    obtain ⟨d, rest, text⟩ := digits.exists_text
    have digit := isAlphanum_char (by decide) d
    have plus : d.char ≠ '+' := ne_of_isAlphanum digit (by decide)
    have minus : d.char ≠ '-' := ne_of_isAlphanum digit (by decide)
    have bare : Literal.takeSign digits.text = (false, digits.text) := by
      rw [text]
      unfold Literal.takeSign
      split
      · rename_i h
        exact absurd (Glyph.scalar.inj (List.cons.inj h).1) plus
      · rename_i h
        exact absurd (Glyph.scalar.inj (List.cons.inj h).1) minus
      · rfl
    simp only [Sign.text, List.nil_append, bare]
    exact ⟨rfl, trivial⟩

theorem number?_decimal (sign : Sign) (digits : Digits 10) :
    number? (Number.decimal sign digits).text =
      if Literal.fits 64 (sign.apply digits.value) then some (sign.apply digits.value)
      else none := by
  obtain ⟨value, behind⟩ := takeSign_decimal sign digits
  have read := natural?_text (by decide) digits
  rw [number?, Number.text, pattern?_decimal]
  simp only [Literal.integer?, behind, read, value]

theorem pattern?_hexadecimal (capital : Bool) (digits : Digits 16) :
    pattern? (Number.hexadecimal capital digits).text = some (16, digits.text) := by
  cases capital <;> rfl

theorem pattern?_binary (capital : Bool) (digits : Digits 2) :
    pattern? (Number.binary capital digits).text = some (2, digits.text) := by
  cases capital <;> rfl

theorem number?_pattern {base : Nat} (marked : IsBase base) {word : Text}
    {digits : Digits base} (h : pattern? word = some (base, digits.text)) :
    number? word =
      if digits.value < 0x8000000000000000 then some (digits.value : Int) else none := by
  have read := natural?_text marked digits
  simp only [number?, h, read]

/-! ### Words as operands -/

/-- A glyph that marks neither a complement nor a quoted character nor an operand in brackets. -/
def startsValue (g : Glyph) : Bool :=
  g ≠ .scalar '~' && g ≠ .scalar '\'' && g ≠ .scalar '['

theorem takeTilde_cons {g : Glyph} (rest : Text) (h : startsValue g = true) :
    takeTilde (g :: rest) = (false, g :: rest) := by
  simp only [startsValue, ne_eq, Bool.and_eq_true, decide_eq_true_eq] at h
  unfold takeTilde
  split
  · rename_i same
    exact absurd (List.cons.inj same).1 h.1.1
  · rfl

theorem isQuote_cons {g : Glyph} (rest : Text) (h : startsValue g = true) :
    isQuote (g :: rest) = false := by
  simp only [startsValue, ne_eq, Bool.and_eq_true, decide_eq_true_eq] at h
  unfold isQuote
  split
  · rename_i same
    exact absurd (List.cons.inj same).1 h.1.2
  · rfl

theorem valueOf_cons {g : Glyph} (rest : Text) (h : startsValue g = true) :
    valueOf (g :: rest) =
      match number? (g :: rest) with
      | none => .error (.badNumber (g :: rest))
      | some n => .ok n := by
  simp only [valueOf, takeTilde_cons rest h, isQuote_cons rest h]
  rfl

theorem Number.exists_text (n : Number) :
    ∃ g rest, n.text = g :: rest ∧ startsValue g = true ∧ startsIdentifier g = false := by
  cases n with
  | hexadecimal capital digits => exact ⟨_, _, rfl, by decide, by decide⟩
  | binary capital digits => exact ⟨_, _, rfl, by decide, by decide⟩
  | decimal sign digits =>
    cases sign with
    | plus => exact ⟨_, _, rfl, by decide, by decide⟩
    | minus => exact ⟨_, _, rfl, by decide, by decide⟩
    | unsigned =>
      obtain ⟨⟨value, capital⟩, rest, text⟩ := digits.exists_text
      have starts : ∀ (value : Fin 10) (capital : Bool),
          startsValue (.scalar (Digit.char ⟨value, capital⟩)) = true ∧
            startsIdentifier (.scalar (Digit.char ⟨value, capital⟩)) = false := by
        decide
      exact ⟨_, _, text, starts value capital⟩

theorem plainOperand_text (n : Number) :
    plainOperand n.text =
      match number? n.text with
      | none => .error (.badNumber n.text)
      | some v => (fitted n.text v).map .value := by
  obtain ⟨g, rest, text, starts, noName⟩ := n.exists_text
  rw [plainOperand, text, valueOf_cons rest starts]
  cases number? (g :: rest) with
  | none => simp [isIdentifier, noName]
  | some v => rfl

theorem fitted_text (n : Number) (v : Int) :
    fitted n.text v =
      if v < Instr.operandMin then .error (.operandRange v)
      else if (pattern? n.text).isSome && v ≤ Instr.patternMax then .ok (Instr.signExtend v)
      else if v ≤ Instr.operandMax then .ok v
      else .error (.operandRange v) := by
  obtain ⟨g, rest, text, starts, -⟩ := n.exists_text
  rw [fitted, text, takeTilde_cons rest starts]

/-! ### Literals in their range and outside of it -/

section Patterns

variable {n : Number} {base : Nat} {digits : Digits base}

theorem plainOperand_pattern (marked : IsBase base)
    (h : pattern? n.text = some (base, digits.text)) (inRange : digits.value ≤ 2 ^ 24 - 1) :
    plainOperand n.text = .ok (.value (Int.bmod digits.value (2 ^ 24))) := by
  have below : digits.value < 0x8000000000000000 := by omega
  have atLeast : ¬ (digits.value : Int) < Instr.operandMin := by
    simp only [Instr.operandMin]
    omega
  have atMost : (digits.value : Int) ≤ Instr.patternMax := by
    simp only [Instr.patternMax]
    omega
  rw [plainOperand_text, number?_pattern marked h, if_pos below]
  simp only [fitted_text, h, if_neg atLeast, atMost, Option.isSome_some, decide_true,
    Bool.and_self, if_true]
  rfl

theorem plainOperand_pattern_too_large (marked : IsBase base)
    (h : pattern? n.text = some (base, digits.text)) (large : ¬ digits.value ≤ 2 ^ 24 - 1) :
    ∃ cause, plainOperand n.text = .error cause := by
  rw [plainOperand_text, number?_pattern marked h]
  by_cases below : digits.value < 0x8000000000000000
  · have atLeast : ¬ (digits.value : Int) < Instr.operandMin := by
      simp only [Instr.operandMin]
      omega
    have overPattern : ¬ (digits.value : Int) ≤ Instr.patternMax := by
      simp only [Instr.patternMax]
      omega
    have overDecimal : ¬ (digits.value : Int) ≤ Instr.operandMax := by
      simp only [Instr.operandMax]
      omega
    rw [if_pos below]
    simp only [fitted_text, if_neg atLeast, overPattern, if_neg overDecimal, decide_false,
      Bool.and_false, Bool.false_eq_true, if_false]
    exact ⟨_, rfl⟩
  · rw [if_neg below]
    exact ⟨_, rfl⟩

end Patterns

theorem fits_64_iff (v : Int) : Literal.fits 64 v = true ↔ -2 ^ 63 ≤ v ∧ v < 2 ^ 63 := by
  simp [Literal.fits]

theorem plainOperand_decimal (sign : Sign) (digits : Digits 10)
    (inRange : (Number.decimal sign digits).InRange) :
    plainOperand (Number.decimal sign digits).text = .ok (.value (sign.apply digits.value)) := by
  obtain ⟨lower, upper⟩ := inRange
  have fits : Literal.fits 64 (sign.apply digits.value) = true :=
    (fits_64_iff _).mpr ⟨by omega, by omega⟩
  have atLeast : ¬ sign.apply digits.value < Instr.operandMin := by
    simp only [Instr.operandMin]
    omega
  have atMost : sign.apply digits.value ≤ Instr.operandMax := by
    simp only [Instr.operandMax]
    omega
  have unmarked : pattern? (Number.decimal sign digits).text = none := pattern?_decimal sign digits
  rw [plainOperand_text, number?_decimal, if_pos fits]
  simp only [fitted_text, unmarked, if_neg atLeast, if_pos atMost, Option.isSome_none,
    Bool.false_and, Bool.false_eq_true, if_false]
  rfl

theorem plainOperand_decimal_out_of_range (sign : Sign) (digits : Digits 10)
    (outside : ¬ (Number.decimal sign digits).InRange) :
    ∃ cause, plainOperand (Number.decimal sign digits).text = .error cause := by
  have unmarked : pattern? (Number.decimal sign digits).text = none := pattern?_decimal sign digits
  rw [plainOperand_text, number?_decimal]
  by_cases fits : Literal.fits 64 (sign.apply digits.value) = true
  · rw [if_pos fits]
    simp only [fitted_text, unmarked, Option.isSome_none, Bool.false_and, Bool.false_eq_true,
      if_false]
    by_cases below : sign.apply digits.value < Instr.operandMin
    · rw [if_pos below]
      exact ⟨_, rfl⟩
    · have above : ¬ sign.apply digits.value ≤ Instr.operandMax := by
        simp only [Number.InRange, Instr.operandMin, Instr.operandMax] at outside below ⊢
        omega
      rw [if_neg below, if_neg above]
      exact ⟨_, rfl⟩
  · rw [if_neg fits]
    exact ⟨_, rfl⟩

/-- A literal in its range is an operand, and the operand is its signed value. -/
theorem plainOperand_number {n : Number} (inRange : n.InRange) :
    plainOperand n.text = .ok (.value n.signed) := by
  cases n with
  | decimal sign digits =>
    have small : Int.bmod (sign.apply digits.value) (2 ^ 24) = sign.apply digits.value := by
      obtain ⟨lower, upper⟩ := inRange
      apply Int.bmod_eq_of_le <;> omega
    rw [plainOperand_decimal sign digits inRange, Number.signed, Number.value, small]
  | hexadecimal capital digits =>
    exact plainOperand_pattern (by decide) (pattern?_hexadecimal capital digits) inRange
  | binary capital digits =>
    exact plainOperand_pattern (by decide) (pattern?_binary capital digits) inRange

/-- A literal outside its range is no operand. -/
theorem plainOperand_number_of_not_inRange {n : Number} (outside : ¬ n.InRange) :
    ∃ cause, plainOperand n.text = .error cause := by
  cases n with
  | decimal sign digits => exact plainOperand_decimal_out_of_range sign digits outside
  | hexadecimal capital digits =>
    exact plainOperand_pattern_too_large (by decide) (pattern?_hexadecimal capital digits) outside
  | binary capital digits =>
    exact plainOperand_pattern_too_large (by decide) (pattern?_binary capital digits) outside

/-! ### Names as operands -/

theorem ne_of_startsIdentifier {g k : Glyph} (h : startsIdentifier g = true)
    (hk : startsIdentifier k = false) : g ≠ k := by
  rintro rfl
  rw [h] at hk
  cases hk

theorem digit?_of_startsIdentifier {g : Glyph} (h : startsIdentifier g = true) :
    Literal.digit? 10 g = none := by
  cases g with
  | stray b => rfl
  | scalar c =>
    have bound : 65 ≤ c.toNat := by
      simp only [startsIdentifier, Bool.or_eq_true, decide_eq_true_eq] at h
      rcases h with alpha | rfl
      · have limits := isAlpha_bounds alpha
        omega
      · decide
    have noDigit : ¬ ('0' ≤ c ∧ c ≤ '9') := by
      rintro ⟨-, upper⟩
      have limit : c.toNat ≤ 57 := upper
      omega
    -- letters are worth ten at least
    simp only [Literal.digit?, if_neg noDigit]
    rw [if_neg]
    split_ifs <;> omega

theorem number?_name (n : Name) : number? n.text = none := by
  obtain ⟨g, rest, text, starts, -⟩ := n.exists_text
  have zero : g ≠ .scalar '0' := ne_of_startsIdentifier starts (by decide)
  have plus : g ≠ .scalar '+' := ne_of_startsIdentifier starts (by decide)
  have minus : g ≠ .scalar '-' := ne_of_startsIdentifier starts (by decide)
  have unmarked : pattern? (g :: rest) = none :=
    pattern?_eq_none fun m behind h => absurd (List.cons.inj h).1 zero
  have bare : Literal.takeSign (g :: rest) = (false, g :: rest) := by
    unfold Literal.takeSign
    split
    · rename_i h
      exact absurd (List.cons.inj h).1 plus
    · rename_i h
      exact absurd (List.cons.inj h).1 minus
    · rfl
  have noDigits : Literal.natural? 10 (g :: rest) = none := by
    simp [Literal.natural?, Literal.digits?, digit?_of_startsIdentifier starts]
  rw [number?, text, unmarked]
  simp only [Literal.integer?, bare, noDigits]

theorem startsValue_of_startsIdentifier {g : Glyph} (h : startsIdentifier g = true) :
    startsValue g = true := by
  have tilde : g ≠ .scalar '~' := ne_of_startsIdentifier h (by decide)
  have quote : g ≠ .scalar '\'' := ne_of_startsIdentifier h (by decide)
  have bracket : g ≠ .scalar '[' := ne_of_startsIdentifier h (by decide)
  simp [startsValue, tilde, quote, bracket]

/-- A name is taken for a label. -/
theorem plainOperand_name (n : Name) : plainOperand n.text = .ok (.label n.text) := by
  have value := number?_name n
  obtain ⟨g, rest, text, starts, -⟩ := n.exists_text
  have identifier := n.identifier
  rw [text] at value identifier ⊢
  rw [plainOperand, valueOf_cons rest (startsValue_of_startsIdentifier starts), value]
  simp [identifier]

/-! ### Operands -/

/-- Equates among which only the standard ones can be found. -/
def OnlyStandard (equates : Dictionary Text) : Prop :=
  ∀ word, word ∉ Assembler.standardEquates.map Prod.fst → equates.find? word = none

theorem isIdentifier_of_standard :
    ∀ word ∈ Assembler.standardEquates.map Prod.fst, isIdentifier word = true := by
  decide

theorem cons_free {g : Glyph} (rest : Text) (h : startsIdentifier g = false) :
    g :: rest ∉ Assembler.standardEquates.map Prod.fst := by
  intro member
  have identifier := isIdentifier_of_standard _ member
  simp [isIdentifier, h] at identifier

theorem Term.free (t : Term) : t.text ∉ Assembler.standardEquates.map Prod.fst := by
  cases t with
  | name label => exact label.free
  | number n =>
    obtain ⟨g, rest, text, -, noName⟩ := n.exists_text
    rw [Term.text, text]
    exact cons_free rest noName

theorem Term.exists_text (t : Term) : ∃ g rest, t.text = g :: rest ∧ startsValue g = true := by
  cases t with
  | name label =>
    obtain ⟨g, rest, text, starts, -⟩ := label.exists_text
    exact ⟨g, rest, text, startsValue_of_startsIdentifier starts⟩
  | number n =>
    obtain ⟨g, rest, text, starts, -⟩ := n.exists_text
    exact ⟨g, rest, text, starts⟩

theorem Operand.free (o : Operand) : o.text ∉ Assembler.standardEquates.map Prod.fst := by
  unfold Operand.text
  split
  · exact cons_free _ (by decide)
  · exact o.term.free

/-- Brackets make no difference to an operand. -/
theorem operandOf_text {equates : Dictionary Text} (plain : OnlyStandard equates) (o : Operand) :
    operandOf equates o.text = plainOperand o.term.text := by
  obtain ⟨g, rest, text, starts⟩ := o.term.exists_text
  simp only [startsValue, ne_eq, Bool.and_eq_true, decide_eq_true_eq] at starts
  unfold operandOf Operand.text
  split
  · have last : (.scalar '[' :: (o.term.text ++ [.scalar ']'])).getLast? = some (.scalar ']') := by
      rw [← List.cons_append, List.getLast?_concat]
    have inner : bracketed? (.scalar '[' :: (o.term.text ++ [.scalar ']'])) = some o.term.text := by
      rw [bracketed?, last, if_pos (by simp [text]), List.tail_cons, List.dropLast_concat]
    simp [inner, plain _ o.term.free]
  · simp [text, starts.2]

/-! ### Mnemonics -/

theorem isUpper_of_mnemonic (op : Opcode) : ∀ c ∈ op.mnemonic.toList, c.isUpper = true := by
  have all : op.mnemonic.toList.all Char.isUpper = true := by cases op <;> decide
  exact List.all_eq_true.mp all

theorem isAlpha_of_toUpper {c : Char} (h : c.toUpper.isUpper = true) : c.isAlpha = true := by
  by_cases lower : c.isLower = true
  · exact Bool.or_eq_true_iff.mpr (.inr lower)
  · have same : c.toUpper = c := by
      unfold Char.toUpper
      refine dif_neg fun h => lower (Bool.and_eq_true_iff.mpr ?_)
      exact ⟨decide_eq_true h.1, decide_eq_true h.2⟩
    rw [same] at h
    exact Bool.or_eq_true_iff.mpr (.inl h)

theorem capital_of_isAlpha {c : Char} (h : c.isAlpha = true) :
    Opcode.capital (.scalar c) = .scalar c.toUpper := by
  have dotless : c ≠ '\u0131' := by
    rintro rfl
    cases h
  have long : c ≠ '\u017F' := by
    rintro rfl
    cases h
  simp [Opcode.capital, dotless, long]

theorem find?_mnemonic (op : Opcode) :
    Opcode.all.find? (fun other => Text.ofString other.mnemonic = Text.ofString op.mnemonic) =
      some op := by
  cases op <;> decide

theorem mnemonic_ne_standard (op : Opcode) :
    ∀ word ∈ ["LINENO", "DATA_SIZE", "STACK_LIMIT"],
      word.toList.map Char.toUpper ≠ op.mnemonic.toList := by
  cases op <;> decide

namespace Instruction

variable (i : Instruction)

theorem isAlpha_letters : ∀ c ∈ i.letters, c.isAlpha = true := by
  intro c hc
  have capital : c.toUpper ∈ i.op.mnemonic.toList := i.spelled ▸ List.mem_map_of_mem hc
  exact isAlpha_of_toUpper (isUpper_of_mnemonic i.op _ capital)

/-- A mnemonic names its operation in any letter case. -/
theorem ofMnemonic?_mnemonic : Opcode.ofMnemonic? i.mnemonic = some i.op := by
  have capitals : i.mnemonic.map Opcode.capital = Text.ofString i.op.mnemonic := by
    rw [Text.ofString, ← i.spelled, Instruction.mnemonic, List.map_map, List.map_map]
    exact List.map_congr_left fun c hc => capital_of_isAlpha (i.isAlpha_letters c hc)
  rw [Opcode.ofMnemonic?, capitals]
  exact find?_mnemonic i.op

theorem mnemonic_free : i.mnemonic ∉ Assembler.standardEquates.map Prod.fst := by
  intro member
  obtain ⟨word, listed, same⟩ : ∃ word ∈ ["LINENO", "DATA_SIZE", "STACK_LIMIT"],
      word.toList.map Glyph.scalar = i.letters.map Glyph.scalar := by
    simpa [Assembler.standardEquates, lineName, Text.ofString, Instruction.mnemonic, eq_comm]
      using member
  have letters : word.toList = i.letters :=
    List.map_injective_iff.mpr (fun _ _ => Glyph.scalar.inj) same
  exact mnemonic_ne_standard i.op word listed (letters ▸ i.spelled)

theorem exists_mnemonic : ∃ g rest, i.mnemonic = g :: rest ∧ startsIdentifier g = true := by
  cases letters : i.letters with
  | nil =>
    have spelled := i.spelled
    rw [letters] at spelled
    have named : i.op.mnemonic.toList ≠ [] := by cases i.op <;> decide
    exact absurd spelled.symm named
  | cons c rest =>
    have alpha := i.isAlpha_letters c (by simp [letters])
    exact ⟨.scalar c, rest.map Glyph.scalar, by simp [Instruction.mnemonic, letters],
      by simp [startsIdentifier, alpha]⟩

end Instruction

end Core

end StackMachine
