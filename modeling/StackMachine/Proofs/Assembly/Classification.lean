import Mathlib.Data.Int.ModEq
import StackMachine.Proofs.Assembly.CoreWords

/-!
# What a word stands for

A word without brackets is a constant, an identifier or neither. The constants are written here as
data: a literal, possibly behind a tilde, which complements it. Every text that is read as a number
is the written form of one, so that each word has exactly one of four outcomes as an operand: a
number, a number that is out of range, a label, or no reading at all.

## Main definitions

* `Core.Number.Readable`: the literals that fit in 64 bits.
* `Core.Constant`: a literal, possibly complemented.
* `Core.Constant.InRange`: the constants that an instruction can hold.

## Main results

* `Core.number?_eq_some_iff`: the texts that are read as literals are the written ones.
* `Core.valueOf_eq_ok_iff`: the words that have a value are the written constants.
* `Core.operandOf_classifies`: the four outcomes of a word.
-/

namespace StackMachine

namespace Core

open Assembly

/-! ### Digits that are read -/

section Digits

variable {base : Nat}

/-- The characters that are read as digits are ASCII, and a digit is less than the base. -/
theorem bounds_of_digit? {c : Char} {d : Nat} (small : base ≤ 36)
    (h : Literal.digit? base (.scalar c) = some d) : d < base ∧ c.toNat < 123 := by
  simp only [Literal.digit?, Option.ite_none_right_eq_some, Option.some.injEq] at h
  obtain ⟨below, rfl⟩ := h
  refine ⟨below, ?_⟩
  split_ifs at below with digit lower upper
  · exact Nat.lt_of_le_of_lt digit.2 (by decide)
  · exact Nat.lt_of_le_of_lt lower.2 (by decide)
  · exact Nat.lt_of_le_of_lt upper.2 (by decide)
  · omega

/-- A glyph that is read as a digit is the character of one. -/
theorem exists_digit_of_digit? (marked : IsBase base) {g : Glyph} {d : Nat}
    (h : Literal.digit? base g = some d) : ∃ e : Digit base, g = .scalar e.char := by
  have table : ∀ base ∈ [2, 10, 16], ∀ n : Fin 123, ∀ d : Fin base,
      Literal.digit? base (.scalar (Char.ofNat n)) = some d.val →
        ∃ capital, Char.ofNat n = Digit.char ⟨d, capital⟩ := by
    decide +kernel
  cases g with
  | stray b => cases h
  | scalar c =>
    obtain ⟨small, ascii⟩ := bounds_of_digit? (by omega) h
    obtain ⟨capital, char⟩ := table base (by simpa using marked) ⟨c.toNat, ascii⟩ ⟨d, small⟩
      (by rw [Char.ofNat_toNat]; exact h)
    rw [Char.ofNat_toNat] at char
    exact ⟨⟨⟨d, small⟩, capital⟩, by rw [char]⟩

theorem exists_digits_of_digits? (marked : IsBase base) {start n : Nat} {t : Text}
    (h : Literal.digits? base start t = some n) :
    ∃ ds : List (Digit base), t = ds.map fun d => .scalar d.char := by
  induction t generalizing start with
  | nil => exact ⟨[], rfl⟩
  | cons g rest ih =>
    rw [Literal.digits?] at h
    obtain ⟨d, first, later⟩ := Option.bind_eq_some_iff.mp h
    obtain ⟨e, rfl⟩ := exists_digit_of_digit? marked first
    obtain ⟨ds, rfl⟩ := ih later
    exact ⟨e :: ds, rfl⟩

/-- The digit strings that are read are the written ones, of any length. -/
theorem natural?_eq_some_iff (marked : IsBase base) {t : Text} {n : Nat} :
    Literal.natural? base t = some n ↔ ∃ ds : Digits base, ds.text = t ∧ ds.value = n := by
  constructor
  · intro h
    have read := h
    rw [Literal.natural?] at h
    split at h
    · cases h
    · rename_i nonempty
      obtain ⟨list, text⟩ := exists_digits_of_digits? marked h
      have digits : list ≠ [] := by
        rintro rfl
        exact nonempty (by rw [text]; rfl)
      have written : (⟨list, digits⟩ : Digits base).text = t := text.symm
      rw [← written, natural?_text marked, Option.some.injEq] at read
      exact ⟨⟨list, digits⟩, written, read⟩
  · rintro ⟨ds, rfl, rfl⟩
    exact natural?_text marked ds

end Digits

/-! ### Literals that are read -/

namespace Number

/-- Whether a literal is a bit pattern. -/
def isPattern : Number → Bool
  | decimal _ _ => false
  | hexadecimal _ _ => true
  | binary _ _ => true

/-- A literal that can be read: a decimal of 64 bits with its sign, or a bit pattern of 63 bits. -/
def Readable : Number → Prop
  | decimal sign digits => -2 ^ 63 ≤ sign.apply digits.value ∧ sign.apply digits.value < 2 ^ 63
  | hexadecimal _ digits => digits.value < 2 ^ 63
  | binary _ digits => digits.value < 2 ^ 63

variable {n : Number}

theorem isSome_pattern?_text (n : Number) : (pattern? n.text).isSome = n.isPattern := by
  cases n with
  | decimal sign digits =>
    rw [text, pattern?_decimal]
    rfl
  | hexadecimal capital digits =>
    rw [pattern?_hexadecimal]
    rfl
  | binary capital digits =>
    rw [pattern?_binary]
    rfl

/-- A literal is read exactly if it fits, and then as its value. -/
theorem number?_text_eq_some_iff {v : Int} :
    number? n.text = some v ↔ n.Readable ∧ n.value = v := by
  cases n with
  | decimal sign digits =>
    rw [number?_decimal, Option.ite_none_right_eq_some, fits_64_iff, Option.some.injEq]
    rfl
  | hexadecimal capital digits =>
    rw [number?_pattern (by decide) (pattern?_hexadecimal capital digits),
      Option.ite_none_right_eq_some, Option.some.injEq]
    rfl
  | binary capital digits =>
    rw [number?_pattern (by decide) (pattern?_binary capital digits),
      Option.ite_none_right_eq_some, Option.some.injEq]
    rfl

end Number

/-- A word with the mark of a bit pattern starts with the mark. -/
theorem pattern?_eq_some {word digits : Text} {base : Nat}
    (h : pattern? word = some (base, digits)) :
    (base = 16 ∧ ∃ capital, word =
      .scalar '0' :: .scalar (if capital = true then 'X' else 'x') :: digits) ∨
    (base = 2 ∧ ∃ capital, word =
      .scalar '0' :: .scalar (if capital = true then 'B' else 'b') :: digits) := by
  unfold pattern? at h
  split at h
  · split_ifs at h with hexadecimal binary
    · cases h
      rcases hexadecimal with rfl | rfl
      · exact .inl ⟨rfl, false, rfl⟩
      · exact .inl ⟨rfl, true, rfl⟩
    · cases h
      rcases binary with rfl | rfl
      · exact .inr ⟨rfl, false, rfl⟩
      · exact .inr ⟨rfl, true, rfl⟩
  · cases h

/-- The sign of a text is a written one, and it stands in front of the rest. -/
theorem exists_sign (t : Text) :
    ∃ sign : Sign, t = sign.text ++ (Literal.takeSign t).2 := by
  unfold Literal.takeSign
  split
  · exact ⟨.plus, rfl⟩
  · exact ⟨.minus, rfl⟩
  · exact ⟨.unsigned, rfl⟩

/-- Every word that is read as a literal is the written form of one. -/
theorem exists_number_of_number? {word : Text} {v : Int} (h : number? word = some v) :
    ∃ n : Number, n.text = word := by
  unfold number? at h
  split at h
  · rename_i base digits marked
    split at h
    · rename_i value read
      rcases pattern?_eq_some marked with ⟨rfl, capital, rfl⟩ | ⟨rfl, capital, rfl⟩
      · obtain ⟨ds, rfl, -⟩ := (natural?_eq_some_iff (by decide)).mp read
        exact ⟨.hexadecimal capital ds, rfl⟩
      · obtain ⟨ds, rfl, -⟩ := (natural?_eq_some_iff (by decide)).mp read
        exact ⟨.binary capital ds, rfl⟩
    · cases h
  · unfold Literal.integer? at h
    split at h
    · rename_i magnitude read
      obtain ⟨ds, text, -⟩ := (natural?_eq_some_iff (by decide)).mp read
      obtain ⟨sign, front⟩ := exists_sign word
      exact ⟨.decimal sign ds, by rw [Number.text, text, ← front]⟩
    · cases h

/-- The words that are read as literals are the written literals that fit. -/
theorem number?_eq_some_iff {word : Text} {v : Int} :
    number? word = some v ↔ ∃ n : Number, n.text = word ∧ n.Readable ∧ n.value = v := by
  constructor
  · intro h
    obtain ⟨n, rfl⟩ := exists_number_of_number? h
    exact ⟨n, rfl, Number.number?_text_eq_some_iff.mp h⟩
  · rintro ⟨n, rfl, read⟩
    exact Number.number?_text_eq_some_iff.mpr read

/-! ### Constants -/

/-- A literal, possibly behind a tilde. -/
structure Constant where
  inverted : Bool
  number : Number

namespace Constant

/-- The written form of a constant. -/
def text (c : Constant) : Text :=
  if c.inverted then .scalar '~' :: c.number.text else c.number.text

/-- The value of a constant: that of its literal, complemented behind a tilde. -/
def value (c : Constant) : Int :=
  if c.inverted then -c.number.value - 1 else c.number.value

/-- The greatest value that an instruction takes from a constant: bit patterns may use the bit of
the sign. -/
def ceiling (c : Constant) : Int :=
  if c.number.isPattern then 2 ^ 24 - 1 else 2 ^ 23 - 1

/-- A constant that an instruction can hold. -/
def InRange (c : Constant) : Prop :=
  -2 ^ 23 ≤ c.value ∧ c.value ≤ c.ceiling

variable (c : Constant)

theorem takeTilde_text : takeTilde c.text = (c.inverted, c.number.text) := by
  obtain ⟨g, rest, text, starts, -⟩ := c.number.exists_text
  cases inverted : c.inverted with
  | false => simp only [Constant.text, inverted, text, Bool.false_eq_true, if_false,
      takeTilde_cons rest starts]
  | true =>
    rw [Constant.text, inverted, if_pos rfl, text]
    rfl

theorem valueOf_text :
    valueOf c.text =
      match number? c.number.text with
      | none => .error (.badNumber c.number.text)
      | some n => .ok (if c.inverted then -n - 1 else n) := by
  obtain ⟨g, rest, text, starts, -⟩ := c.number.exists_text
  have quoteless : isQuote c.number.text = false := by rw [text, isQuote_cons rest starts]
  cases read : number? c.number.text with
  | none => simp only [valueOf, takeTilde_text, quoteless, Bool.false_eq_true, if_false, read]
  | some n => simp only [valueOf, takeTilde_text, quoteless, Bool.false_eq_true, if_false, read]

/-- No constant is an identifier. -/
theorem not_isIdentifier_text : isIdentifier c.text = false := by
  obtain ⟨g, rest, text, -, noName⟩ := c.number.exists_text
  cases inverted : c.inverted with
  | false => simp [Constant.text, inverted, text, isIdentifier, noName]
  | true => simp [Constant.text, inverted, isIdentifier, startsIdentifier]

theorem not_bracketed : c.text.head? ≠ some (.scalar '[') := by
  obtain ⟨g, rest, text, starts, -⟩ := c.number.exists_text
  simp only [startsValue, ne_eq, Bool.and_eq_true, decide_eq_true_eq] at starts
  cases inverted : c.inverted with
  | false => simp [Constant.text, inverted, text, starts.2]
  | true => simp [Constant.text, inverted]

variable {c}

/-- A constant that an instruction can hold can be read. -/
theorem InRange.readable (inRange : c.InRange) : c.number.Readable := by
  obtain ⟨inverted, number⟩ := c
  obtain ⟨lower, upper⟩ := inRange
  cases number <;> cases inverted <;>
    simp only [value, ceiling, Number.isPattern, Number.value, Number.Readable, if_true, if_false,
      Bool.false_eq_true] at lower upper ⊢ <;> omega

/-- The value of a constant that can be read has 64 bits. -/
theorem value_bounds (readable : c.number.Readable) : -2 ^ 63 ≤ c.value ∧ c.value < 2 ^ 63 := by
  obtain ⟨inverted, number⟩ := c
  cases number <;> cases inverted <;>
    simp only [value, Number.value, Number.Readable, if_true, if_false,
      Bool.false_eq_true] at readable ⊢ <;> omega

/-- The low 24 bits of the value with their sign, if it is in range. -/
theorem fitted_text :
    (c.InRange → fitted c.text c.value = .ok (Instr.signExtend c.value)) ∧
      (¬ c.InRange → fitted c.text c.value = .error (.operandRange c.value)) := by
  have pattern : (pattern? (takeTilde c.text).2).isSome = c.number.isPattern := by
    rw [takeTilde_text, Number.isSome_pattern?_text]
  have least : Instr.operandMin = -2 ^ 23 := rfl
  have greatest : Instr.operandMax = 2 ^ 23 - 1 := rfl
  have most : Instr.patternMax = 2 ^ 24 - 1 := rfl
  simp only [fitted, pattern, InRange, ceiling]
  cases c.number.isPattern with
  | true =>
    simp only [Bool.true_and, decide_eq_true_eq, if_true]
    constructor
    · rintro ⟨lower, upper⟩
      rw [if_neg (by omega), if_pos (by omega)]
    · intro outside
      split_ifs with below within small
      · rfl
      · omega
      · omega
      · rfl
  | false =>
    simp only [Bool.false_and, Bool.false_eq_true, if_false]
    constructor
    · rintro ⟨lower, upper⟩
      have small : Instr.signExtend c.value = c.value := by
        apply Int.bmod_eq_of_le <;> omega
      rw [if_neg (by omega), if_pos (by omega), small]
    · intro outside
      split_ifs with below small
      · rfl
      · omega
      · rfl

end Constant

/-- A word with a tilde that counts is the word behind it with the tilde in front. -/
theorem takeTilde_cases (word : Text) :
    (takeTilde word).1 = false ∧ (takeTilde word).2 = word ∨
      (takeTilde word).1 = true ∧ word = .scalar '~' :: (takeTilde word).2 := by
  unfold takeTilde
  split
  · exact .inr ⟨rfl, rfl⟩
  · exact .inl ⟨rfl, rfl⟩

/-- The words that have a value are the written constants that can be read. -/
theorem valueOf_eq_ok_iff {word : Text} {v : Int} :
    valueOf word = .ok v ↔ ∃ c : Constant, c.text = word ∧ c.number.Readable ∧ c.value = v := by
  constructor
  · intro h
    unfold valueOf at h
    dsimp only at h
    split at h
    · cases h
    · split at h
      · cases h
      · rename_i n read
        cases h
        obtain ⟨number, text, readable, rfl⟩ := number?_eq_some_iff.mp read
        refine ⟨⟨(takeTilde word).1, number⟩, ?_, readable, rfl⟩
        rcases takeTilde_cases word with ⟨plain, body⟩ | ⟨tilde, body⟩
        · rw [Constant.text, plain, text, body]
          rfl
        · rw [Constant.text, tilde, text, ← body]
          rfl
  · rintro ⟨c, rfl, readable, rfl⟩
    rw [c.valueOf_text, Number.number?_text_eq_some_iff.mpr ⟨readable, rfl⟩]
    rfl

/-- A word that has no value is refused as a number or as a character. -/
theorem valueOf_eq_error {word : Text} {cause : Cause} (h : valueOf word = .error cause) :
    ∃ t, cause = .badNumber t ∨ cause = .badCharacter t := by
  unfold valueOf at h
  dsimp only at h
  split at h
  · cases h
    exact ⟨_, .inr rfl⟩
  · split at h
    · cases h
      exact ⟨_, .inl rfl⟩
    · cases h

/-- A word is written in one way only, as far as its value and its range go. -/
theorem Constant.same_of_text {c d : Constant} (text : d.text = c.text)
    (readable : c.number.Readable) :
    d.number.Readable ∧ d.value = c.value ∧ (d.InRange ↔ c.InRange) := by
  have marks := congrArg takeTilde text
  rw [takeTilde_text, takeTilde_text, Prod.mk.injEq] at marks
  obtain ⟨inverted, number⟩ := marks
  have read := Number.number?_text_eq_some_iff.mpr ⟨readable, rfl⟩
  rw [← number] at read
  obtain ⟨readable', value⟩ := Number.number?_text_eq_some_iff.mp read
  have same : d.value = c.value := by rw [Constant.value, Constant.value, inverted, value]
  have pattern : d.number.isPattern = c.number.isPattern := by
    rw [← Number.isSome_pattern?_text, ← Number.isSome_pattern?_text, number]
  exact ⟨readable', same, by rw [InRange, InRange, ceiling, ceiling, same, pattern]⟩

/-! ### Words as operands -/

/-- The integers of 24 bits with their sign stand for one remainder each. -/
theorem signExtend_eq_iff {v r : Int} :
    Instr.signExtend v = r ↔ -2 ^ 23 ≤ r ∧ r ≤ 2 ^ 23 - 1 ∧ r ≡ v [ZMOD 2 ^ 24] := by
  have congruent : Instr.signExtend v % 2 ^ 24 = v % 2 ^ 24 := Int.bmod_emod
  obtain ⟨lower, upper⟩ := Instr.signExtend_bounds v
  simp only [Instr.operandMin, Instr.operandMax] at lower upper
  simp only [Int.ModEq]
  omega

/-- A constant that can be read is a number or out of range. -/
theorem Constant.plainOperand_text {c : Constant} (readable : c.number.Readable) :
    (c.InRange → plainOperand c.text = .ok (.value (Instr.signExtend c.value))) ∧
      (¬ c.InRange → plainOperand c.text = .error (.operandRange c.value)) := by
  have value := valueOf_eq_ok_iff.mpr ⟨c, rfl, readable, rfl⟩
  rw [plainOperand, value]
  exact ⟨fun inRange => congrArg (Except.map Operand.value) (c.fitted_text.1 inRange),
    fun outside => congrArg (Except.map Operand.value) (c.fitted_text.2 outside)⟩

theorem Constant.operandOf_text (c : Constant) (equates : Dictionary Text) :
    operandOf equates c.text = plainOperand c.text := by
  rw [operandOf, if_neg c.not_bracketed]

/-- What a word without brackets is: a constant, in its range or not, an identifier, or neither. -/
theorem plainOperand_cases (word : Text) :
    (∃ c : Constant, c.text = word ∧ c.InRange ∧
      plainOperand word = .ok (.value (Instr.signExtend c.value))) ∨
    (∃ c : Constant, c.text = word ∧ c.number.Readable ∧ ¬ c.InRange ∧
      plainOperand word = .error (.operandRange c.value)) ∨
    (isIdentifier word = true ∧ plainOperand word = .ok (.label word)) ∨
    (isIdentifier word = false ∧ (∀ c : Constant, c.text = word → ¬ c.number.Readable) ∧
      ∃ t, plainOperand word = .error (.badNumber t) ∨
        plainOperand word = .error (.badCharacter t)) := by
  cases value : valueOf word with
  | ok v =>
    obtain ⟨c, rfl, readable, rfl⟩ := valueOf_eq_ok_iff.mp value
    obtain ⟨taken, refused⟩ := Constant.plainOperand_text readable
    by_cases inRange : c.InRange
    · exact .inl ⟨c, rfl, inRange, taken inRange⟩
    · exact .inr (.inl ⟨c, rfl, readable, inRange, refused inRange⟩)
  | error cause =>
    obtain ⟨t, refused⟩ := valueOf_eq_error value
    rw [plainOperand, value]
    cases name : isIdentifier word with
    | true => exact .inr (.inr (.inl ⟨rfl, rfl⟩))
    | false =>
      refine .inr (.inr (.inr ⟨rfl, fun c text readable => ?_, t, ?_⟩))
      · cases value.symm.trans (valueOf_eq_ok_iff.mpr ⟨c, text, readable, rfl⟩)
      · rcases refused with rfl | rfl
        · exact .inl rfl
        · exact .inr rfl

/-- **What a word is taken for as an operand.** Whatever the equates are, a word that does not start
with a bracket has one of four outcomes. It is a number exactly if it is a written constant in its
range, and the number is the only one of 24 bits with sign that is congruent to the value. It is out
of range exactly if it is a constant that can be read and is not in its range, and the value is
told. It is a label exactly if it is an identifier. Otherwise it is refused as a number or as a
character. -/
theorem operandOf_classifies (equates : Dictionary Text) (word : Text)
    (bracketless : word.head? ≠ some (.scalar '[')) :
    (∀ r, operandOf equates word = .ok (.value r) ↔
      ∃ c : Constant, c.text = word ∧ c.InRange ∧
        -2 ^ 23 ≤ r ∧ r ≤ 2 ^ 23 - 1 ∧ r ≡ c.value [ZMOD 2 ^ 24]) ∧
    (∀ v, operandOf equates word = .error (.operandRange v) ↔
      ∃ c : Constant, c.text = word ∧ c.number.Readable ∧ ¬ c.InRange ∧ c.value = v) ∧
    (∀ name, operandOf equates word = .ok (.label name) ↔
      isIdentifier word = true ∧ name = word) ∧
    ((∃ t, operandOf equates word = .error (.badNumber t) ∨
        operandOf equates word = .error (.badCharacter t)) ↔
      isIdentifier word = false ∧ ∀ c : Constant, c.text = word → ¬ c.number.Readable) ∧
    ((∃ r, operandOf equates word = .ok (.value r)) ∨
      (∃ v, operandOf equates word = .error (.operandRange v)) ∨
      operandOf equates word = .ok (.label word) ∨
      ∃ t, operandOf equates word = .error (.badNumber t) ∨
        operandOf equates word = .error (.badCharacter t)) := by
  rw [operandOf, if_neg bracketless]
  rcases plainOperand_cases word with ⟨c, rfl, inRange, outcome⟩ |
    ⟨c, rfl, readable, outside, outcome⟩ | ⟨name, outcome⟩ | ⟨noName, noConstant, t, outcome⟩
  · have noName := c.not_isIdentifier_text
    rw [outcome]
    refine ⟨fun r => ⟨?_, ?_⟩, fun v => ⟨nofun, ?_⟩, by simp [noName], ⟨?_, ?_⟩, .inl ⟨_, rfl⟩⟩
    · rintro ⟨⟩
      exact ⟨c, rfl, inRange, signExtend_eq_iff.mp rfl⟩
    · rintro ⟨d, text, -, bounds⟩
      obtain ⟨-, value, -⟩ := Constant.same_of_text text inRange.readable
      rw [signExtend_eq_iff.mpr (value ▸ bounds)]
    · rintro ⟨d, text, readable, outside, -⟩
      exact absurd ((Constant.same_of_text text inRange.readable).2.2.mpr inRange) outside
    · rintro ⟨t, h | h⟩ <;> cases h
    · exact fun h => absurd inRange.readable (h.2 c rfl)
  · have noName := c.not_isIdentifier_text
    rw [outcome]
    refine ⟨fun r => ⟨nofun, ?_⟩, fun v => ⟨?_, ?_⟩, by simp [noName], ⟨?_, ?_⟩,
      .inr (.inl ⟨_, rfl⟩)⟩
    · rintro ⟨d, text, inRange, -⟩
      exact absurd ((Constant.same_of_text text readable).2.2.mp inRange) outside
    · rintro ⟨⟩
      exact ⟨c, rfl, readable, outside, rfl⟩
    · rintro ⟨d, text, -, -, rfl⟩
      rw [(Constant.same_of_text text readable).2.1]
    · rintro ⟨t, h | h⟩ <;> cases h
    · exact fun h => absurd readable (h.2 c rfl)
  · have noConstant (c : Constant) : c.text ≠ word := by
      rintro rfl
      rw [c.not_isIdentifier_text] at name
      cases name
    rw [outcome]
    simp [name, noConstant, eq_comm]
  · have outside (c : Constant) (text : c.text = word) : ¬ c.InRange :=
      fun inRange => noConstant c text inRange.readable
    refine ⟨fun r => ⟨?_, ?_⟩, fun v => ⟨?_, ?_⟩, fun name => ⟨?_, ?_⟩,
      ⟨fun _ => ⟨noName, noConstant⟩, fun _ => ⟨t, outcome⟩⟩, .inr (.inr (.inr ⟨t, outcome⟩))⟩
    · rcases outcome with outcome | outcome <;> rw [outcome] <;> rintro ⟨⟩
    · rintro ⟨c, text, inRange, -⟩
      exact absurd inRange (outside c text)
    · rcases outcome with outcome | outcome <;> rw [outcome] <;> rintro ⟨⟩
    · rintro ⟨c, text, readable, -⟩
      exact absurd readable (noConstant c text)
    · rcases outcome with outcome | outcome <;> rw [outcome] <;> rintro ⟨⟩
    · rintro ⟨name, -⟩
      cases noName.symm.trans name

/-- The complement of a bit pattern with a given digit behind the zero at its front. -/
def complemented (digit : Fin 16) : Constant where
  inverted := true
  number := .hexadecimal true
    ⟨⟨⟨0, by decide⟩, false⟩ :: ⟨digit, true⟩ :: List.replicate 5 ⟨Fin.last 15, true⟩,
      List.cons_ne_nil _ _⟩

/-- The complement of the greatest decimal operand is the least operand, and that of a greater
number is out of range, though it is a pattern of 24 bits. -/
theorem operandOf_classifies_complemented :
    (complemented 7).text = Text.ofString "~0X07FFFFF" ∧
      (complemented 7).text.head? ≠ some (.scalar '[') ∧
      operandOf {} (complemented 7).text = .ok (.value (-8388608)) ∧
      (complemented 8).text.head? ≠ some (.scalar '[') ∧
      operandOf {} (complemented 8).text = .error (.operandRange (-9437184)) := by
  have bracketless (digit : Fin 16) : (complemented digit).text.head? ≠ some (.scalar '[') := by
    rintro ⟨⟩
  obtain ⟨taken, -⟩ := operandOf_classifies {} (complemented 7).text (bracketless 7)
  obtain ⟨-, refused, -⟩ := operandOf_classifies {} (complemented 8).text (bracketless 8)
  have least : (complemented 7).value = -8388608 := by decide
  have below : (complemented 8).value = -9437184 := by decide
  have inRange : (complemented 7).InRange := by
    rw [Constant.InRange, least]
    decide
  have outside : ¬ (complemented 8).InRange := by
    rw [Constant.InRange, below]
    decide
  have readable : (complemented 8).number.Readable := by
    rw [complemented, Number.Readable]
    decide
  refine ⟨by decide, bracketless 7, (taken _).mpr ⟨_, rfl, inRange, ?_⟩, bracketless 8,
    (refused _).mpr ⟨_, rfl, readable, outside, below⟩⟩
  rw [least]
  decide

end Core

end StackMachine
