import StackMachine.Text.Glyph

/-!
# Written numbers

How numbers are written in listings, tables and messages: decimal, decimal with
thousands separators, and hexadecimal with leading zeros.

## Main definitions

* `Numeral.decimal`: decimal with a minus sign where needed.
* `Numeral.groupDigits`: digits with a comma before every third of them.
* `Numeral.hex`, `Numeral.hexUpper`: hexadecimal of a least width.
* `Numeral.wrap`: the range of the numbers that are computed with.
* `Numeral.listed`: a list of numbers between brackets.
-/

namespace StackMachine

namespace Numeral

/-- The magnitude of an integer behind its sign. -/
def signed (n : Int) (magnitude : List Char) : List Char :=
  if n < 0 then '-' :: magnitude else magnitude

/-- Decimal digits behind a minus sign where needed. -/
def decimal (n : Int) : String :=
  String.ofList (signed n (Nat.toDigits 10 n.natAbs))

/-- An integer can be told from its decimal. -/
theorem decimal_injective : Function.Injective decimal := by
  intro m n same
  have lists := congrArg String.toList same
  simp only [decimal, String.toList_ofList] at lists
  have dash (k : Nat) : '-' ∉ Nat.toDigits 10 k := fun member =>
    absurd (Nat.isDigit_of_mem_toDigits (by decide) (by decide) member) (by decide)
  have magnitude {j k : Nat} (digits : Nat.toDigits 10 j = Nat.toDigits 10 k) : j = k := by
    simpa using congrArg (fun ds => Nat.ofDigitChars 10 ds 0) digits
  unfold signed at lists
  split at lists <;> split at lists
  · have := magnitude (List.cons.inj lists).2
    omega
  · exact absurd (lists ▸ List.mem_cons_self) (dash _)
  · exact absurd (lists ▸ List.mem_cons_self) (dash _)
  · have := magnitude lists
    omega

theorem isDigit_of_mem_decimal {g : Glyph} {n : Nat} (h : g ∈ Text.ofString (decimal n)) :
    ∃ c, g = .scalar c ∧ c.isDigit = true := by
  have digits : (decimal n).toList = Nat.toDigits 10 n := by
    simp [decimal, signed, show ¬ (n : Int) < 0 by omega]
  rw [Text.ofString, digits] at h
  obtain ⟨c, member, rfl⟩ := List.mem_map.mp h
  exact ⟨c, rfl, Nat.isDigit_of_mem_toDigits (by decide) (by decide) member⟩

/-- Puts a comma before every third digit of a digit list that is given last digit first. -/
def groupReversed : List Char → List Char
  | a :: b :: c :: d :: rest => a :: b :: c :: ',' :: groupReversed (d :: rest)
  | few => few

/-- A digit list with a comma before every third digit from its end. -/
def groupDigits (digits : List Char) : List Char :=
  (groupReversed digits.reverse).reverse

/-- A digit list with zeros in front, to at least `width` digits. -/
def padZeros (width : Nat) (digits : List Char) : List Char :=
  List.replicate (width - digits.length) '0' ++ digits

/-- Digits of an integer in a base, zero-padded to `width` characters, the sign included. -/
def padded (base width : Nat) (n : Int) : List Char :=
  signed n (padZeros (if n < 0 then width - 1 else width) (Nat.toDigits base n.natAbs))

/-- Lower-case hexadecimal, zero-padded to `width` characters. -/
def hex (width : Nat) (n : Int) : String :=
  String.ofList (padded 16 width n)

/-- Upper-case hexadecimal, zero-padded to `width` characters. -/
def hexUpper (width : Nat) (n : Int) : String :=
  String.ofList ((padded 16 width n).map Char.toUpper)

/-- The 64-bit integer that an integer wraps around to. -/
def wrap (n : Int) : Int :=
  Int.bmod n 0x10000000000000000

/-- Numbers between square brackets, with a space between two of them. -/
def listed (ns : List Int) : String :=
  "[" ++ " ".intercalate (ns.map decimal) ++ "]"

end Numeral

end StackMachine
