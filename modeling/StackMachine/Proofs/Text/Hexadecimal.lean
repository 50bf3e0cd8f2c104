import StackMachine.Proofs.Assembly.CoreLine
import StackMachine.Text.Numeral

/-!
# Hexadecimal numbers

The addresses and words of listings are written in hexadecimal, with capital letters and with
zeros in front up to a least width. Such a number reads back as what it was written for, and it
is a word: none of its glyphs separates it from what stands next to it.

## Main results

* `Numeral.mem_padded`: the characters of a written number.
* `Numeral.inWord_hexUpper`: a hexadecimal number is a word.
* `Numeral.natural?_hexUpper`: a hexadecimal number reads back.
* `Numeral.length_hexUpper`: a number that is not too large has exactly the least width.
-/

namespace StackMachine

/-! ### Digits one after another -/

namespace Literal

theorem digits?_append (base start : Nat) (s t : Text) :
    digits? base start (s ++ t) = (digits? base start s).bind fun n => digits? base n t := by
  induction s generalizing start with
  | nil => rfl
  | cons g s ih =>
    rw [List.cons_append, digits?, digits?]
    cases digit? base g with
    | none => rfl
    | some d => exact ih _

/-- Zeros in front of digits do not count. -/
theorem digits?_zeros (zeros : Nat) (t : Text) :
    digits? 16 0 (List.replicate zeros (.scalar '0') ++ t) = digits? 16 0 t := by
  induction zeros with
  | zero => rfl
  | succ zeros ih =>
    rw [List.replicate_succ, List.cons_append, digits?]
    exact ih

end Literal

namespace Numeral

/-! ### Characters -/

theorem mem_toDigits {base n : Nat} {c : Char} (large : 1 < base)
    (h : c ∈ Nat.toDigits base n) : ∃ d < base, c = Nat.digitChar d := by
  induction n using Nat.strongRecOn with
  | ind n ih =>
    rw [Nat.toDigits_eq_if large] at h
    split at h
    · exact ⟨n, by assumption, List.mem_singleton.mp h⟩
    · rcases List.mem_append.mp h with front | last
      · exact ih (n / base) (Nat.div_lt_self (by omega) large) front
      · exact ⟨n % base, Nat.mod_lt n (by omega), List.mem_singleton.mp last⟩

theorem mem_padded {base width : Nat} {n : Int} {c : Char} (large : 1 < base)
    (h : c ∈ padded base width n) : c = '-' ∨ ∃ d < base, c = Nat.digitChar d := by
  have zeros : ∀ width, c ∈ padZeros width (Nat.toDigits base n.natAbs) →
      ∃ d < base, c = Nat.digitChar d := by
    intro width member
    rcases List.mem_append.mp member with zero | digit
    · exact ⟨0, by omega, List.eq_of_mem_replicate zero⟩
    · exact mem_toDigits large digit
  unfold padded signed at h
  split at h
  · rcases List.mem_cons.mp h with sign | rest
    · exact .inl sign
    · exact .inr (zeros _ rest)
  · exact .inr (zeros _ h)

/-- A hexadecimal number is a word. -/
theorem inWord_hexUpper (width : Nat) (n : Int) :
    ∀ g ∈ Text.ofString (hexUpper width n), Core.inWord g = true := by
  have digit : ∀ d < 16, (Nat.digitChar d).toUpper.isAlphanum = true := by decide
  intro g member
  rw [Text.ofString, hexUpper, String.toList_ofList] at member
  obtain ⟨c, capital, rfl⟩ := List.mem_map.mp member
  obtain ⟨small, written, rfl⟩ := List.mem_map.mp capital
  rcases mem_padded (by decide) written with rfl | ⟨d, below, rfl⟩
  · decide
  · exact Core.inWord_of_isAlphanum (digit d below)

/-! ### Reading back -/

/-- The digits of a number as they are written, without zeros in front. -/
def upperDigits (n : Nat) : Text :=
  (Nat.toDigits 16 n).map fun c => .scalar c.toUpper

theorem digits?_upperDigits (n : Nat) : Literal.digits? 16 0 (upperDigits n) = some n := by
  have digit : ∀ d < 16,
      Literal.digit? 16 (.scalar (Nat.digitChar d).toUpper) = some d := by decide
  induction n using Nat.strongRecOn with
  | ind n ih =>
    rw [upperDigits, Nat.toDigits_eq_if (by decide)]
    split
    · rename_i small
      simp [Literal.digits?, digit n small]
    · have front := ih (n / 16) (by omega)
      have last : n / 16 * 16 + n % 16 = n := by omega
      rw [List.map_append, Literal.digits?_append, ← upperDigits, front]
      simp [Literal.digits?, digit (n % 16) (by omega), last]

theorem length_upperDigits (n : Nat) : (upperDigits n).length = (Nat.toDigits 16 n).length :=
  List.length_map _

/-- A hexadecimal number is its digits, with zeros in front up to the width. -/
theorem ofString_hexUpper (width n : Nat) :
    Text.ofString (hexUpper width n) =
      List.replicate (width - (upperDigits n).length) (.scalar '0') ++ upperDigits n := by
  have natural : ¬ (n : Int) < 0 := by omega
  have zero : Char.toUpper '0' = '0' := by decide
  simp [Text.ofString, hexUpper, padded, signed, padZeros, natural, upperDigits, zero]

/-- A hexadecimal number reads back as what it was written for. -/
theorem natural?_hexUpper (width n : Nat) :
    Literal.natural? 16 (Text.ofString (hexUpper width n)) = some n := by
  have filled : upperDigits n ≠ [] := by
    rw [← List.length_pos_iff, length_upperDigits]
    exact Nat.length_toDigits_pos
  have nonempty : (Text.ofString (hexUpper width n)).isEmpty = false := by
    rw [ofString_hexUpper]
    simp [filled]
  rw [Literal.natural?, nonempty, ofString_hexUpper, Literal.digits?_zeros, digits?_upperDigits]
  rfl

theorem hexUpper_inj {width m n : Nat}
    (h : Text.ofString (hexUpper width m) = Text.ofString (hexUpper width n)) : m = n := by
  have read := natural?_hexUpper width m
  rw [h, natural?_hexUpper] at read
  exact (Option.some.inj read).symm

/-! ### Width -/

theorem le_length_hexUpper (width n : Nat) :
    width ≤ (Text.ofString (hexUpper width n)).length := by
  rw [ofString_hexUpper, List.length_append, List.length_replicate]
  omega

theorem length_hexUpper {width n : Nat} (wide : 0 < width) (small : n < 16 ^ width) :
    (Text.ofString (hexUpper width n)).length = width := by
  have digits : (upperDigits n).length ≤ width := by
    rw [length_upperDigits]
    exact (Nat.length_toDigits_le_iff (by decide) wide).mpr small
  rw [ofString_hexUpper, List.length_append, List.length_replicate]
  omega

end Numeral

end StackMachine
