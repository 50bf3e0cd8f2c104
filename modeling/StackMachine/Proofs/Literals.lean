import StackMachine.DataList
import StackMachine.Proofs.Assembly.Classification
import StackMachine.Proofs.Assembly.CoreLine

/-!
# Numbers of operands and of data

Operands and data values are written as literals of two kinds. Both know signed decimals
and the bit patterns behind `0x` and `0b`, and agree about them. But a data value takes a
zero in front of its digits for the mark of base eight, while an operand with zeros in
front is a decimal. A text that is a literal of both kinds has the same value in both
exactly if it is no such literal, or is so small that the base makes no difference.

## Main definitions

* `Literal.zeroLed`: a literal with a zero in front that is not part of a mark.

## Main results

* `Literal.digits?_of_scan`: digits without separators have the value that they are scanned to.
* `Literal.octal_le`: when digits have the same value in base eight and in base ten.
* `DataList.forall₂_of_parseItems`: every item of a list is a literal for its value.
* `literals_agree_iff`: when an operand and a data value of one text agree.
-/

namespace StackMachine

namespace Literal

open Assembly

variable {base : Nat} {g : Glyph} {d : Nat} {t : Text}

/-! ### Digits -/

/-- A digit is less than the base, and is the same digit in a larger base. -/
theorem lt_of_digit? (h : digit? base g = some d) : d < base := by
  cases g with
  | stray b => cases h
  | scalar c =>
    simp only [digit?, Option.ite_none_right_eq_some, Option.some.injEq] at h
    exact h.2 ▸ h.1

theorem digit?_of_le {larger : Nat} (h : digit? base g = some d) (le : base ≤ larger) :
    digit? larger g = some d := by
  cases g with
  | stray b => cases h
  | scalar c =>
    simp only [digit?, Option.ite_none_right_eq_some, Option.some.injEq] at h ⊢
    exact ⟨Nat.lt_of_lt_of_le h.1 le, h.2⟩

/-- A separator is no digit. -/
theorem separator_not_mem {start n : Nat} (small : base ≤ 36) (h : digits? base start t = some n) :
    Glyph.scalar '_' ∉ t := by
  induction t generalizing start with
  | nil => exact List.not_mem_nil
  | cons g rest ih =>
    obtain ⟨d, first, others⟩ := Option.bind_eq_some_iff.mp h
    have solid : Glyph.scalar '_' ≠ g := by
      rintro rfl
      cases digit?_of_le first small
    exact List.not_mem_cons_of_ne_of_not_mem solid (ih others)

/-- Digits without separators have the value that they are scanned to. -/
theorem digits?_of_scan {most start total : Nat} (plain : Glyph.scalar '_' ∉ t)
    (h : scan base most start t = .ok total) : digits? base start t = some total := by
  induction t generalizing start with
  | nil =>
    cases h
    rfl
  | cons g rest ih =>
    obtain ⟨solid, others⟩ := List.ne_and_not_mem_of_not_mem_cons plain
    rw [scan, if_neg (Ne.symm solid)] at h
    cases read : digit? base g with
    | none =>
      rw [read] at h
      cases h
    | some d =>
      simp only [read] at h
      split at h
      · cases h
      · rw [digits?, read]
        exact ih others h

/-- Digits are worth no more in base eight than in base ten, and worth the same exactly if there is
nothing in front of the last one but zeros. -/
theorem octal_le {a b m k : Nat} (decimal : digits? 10 a t = some m)
    (octal : digits? 8 b t = some k) (le : b ≤ a) (same : b = a ↔ a < 10) :
    k ≤ m ∧ (k = m ↔ m < 10) := by
  induction t generalizing a b with
  | nil =>
    cases decimal
    cases octal
    exact ⟨le, same⟩
  | cons g rest ih =>
    obtain ⟨d, first, later⟩ := Option.bind_eq_some_iff.mp decimal
    obtain ⟨e, first', later'⟩ := Option.bind_eq_some_iff.mp octal
    have below := lt_of_digit? first'
    rw [digit?_of_le first' (by decide), Option.some.injEq] at first
    subst first
    exact ih later later' (by omega) (by omega)

/-! ### Literals -/

/-- Whether an optionally signed literal has a zero in front of its digits that is not part of the
mark of a bit pattern. -/
def zeroLed (word : Text) : Bool :=
  (pattern? word).isNone && (takeSign word).2.head? = some (.scalar '0')

theorem ne_nil_of_natural? {n : Nat} (h : natural? base t = some n) : t ≠ [] := by
  rintro rfl
  cases h

theorem digits?_of_natural? {n : Nat} (h : natural? base t = some n) :
    digits? base 0 t = some n := by
  unfold natural? at h
  split at h
  · cases h
  · exact h

theorem natural?_of_digits? {n : Nat} (h : digits? base 0 t = some n) (filled : t ≠ []) :
    natural? base t = some n := by
  rw [natural?, if_neg (by simpa using filled), h]

/-- A data value is the magnitude that is scanned behind the mark of the base, with its sign. -/
theorem exists_scan_of_marked {bits : Nat} {word : Text} {value : Int}
    (h : marked bits word = .ok value) :
    ∃ magnitude, value = withSign (takeSign word).1 magnitude ∧ fits bits value = true ∧
      scan (takeBase (takeSign word).2).1 (Nat.pow 2 bits - 1) 0 (takeBase (takeSign word).2).2 =
        .ok magnitude := by
  unfold marked at h
  dsimp only at h
  split at h
  · cases h
  · split at h
    · cases h
    · rename_i magnitude scanned
      split at h
      · cases h
      · split at h
        · rename_i fitting
          cases h
          exact ⟨magnitude, rfl, fitting, scanned⟩
        · cases h

/-- Behind the mark of a bit pattern a data value has the digits of the pattern. -/
theorem takeBase_of_pattern? {word digits : Text} (h : pattern? word = some (base, digits))
    (filled : digits ≠ []) : takeSign word = (false, word) ∧ takeBase word = (base, digits) := by
  obtain ⟨d, rest, rfl⟩ := List.exists_cons_of_ne_nil filled
  rcases Core.pattern?_eq_some h with ⟨rfl, capital, rfl⟩ | ⟨rfl, capital, rfl⟩
  · cases capital <;> exact ⟨rfl, rfl⟩
  · cases capital <;> exact ⟨rfl, rfl⟩

/-- Decimal digits are in base ten for a data value unless the first one is a zero, which marks base
eight. -/
theorem takeBase_of_decimal {n : Nat} (h : natural? 10 t = some n) :
    takeBase t = if t.head? = some (.scalar '0') then (8, t.tail) else (10, t) := by
  have digits := digits?_of_natural? h
  unfold takeBase
  split
  · rename_i m g rest
    obtain ⟨first, -, behind⟩ := Option.bind_eq_some_iff.mp digits
    obtain ⟨e, digit, -⟩ := Option.bind_eq_some_iff.mp behind
    -- the letter of a mark is no decimal digit
    have unmarked : ¬ (m = 'b' ∨ m = 'B') ∧ ¬ (m = 'o' ∨ m = 'O') ∧ ¬ (m = 'x' ∨ m = 'X') := by
      refine ⟨?_, ?_, ?_⟩ <;> rintro (rfl | rfl) <;> cases digit
    rw [if_neg unmarked.1, if_neg unmarked.2.1, if_neg unmarked.2.2]
    rfl
  · rfl
  · rename_i other
    have front : t.head? ≠ some (.scalar '0') := by
      intro zero
      obtain ⟨rest, rfl⟩ := List.head?_eq_some_iff.mp zero
      exact other rest rfl
    rw [if_neg front]

theorem withSign_inj {negative : Bool} {m n : Nat} :
    withSign negative m = withSign negative n ↔ m = n := by
  cases negative <;> simp [withSign]

theorem natAbs_withSign (negative : Bool) (n : Nat) : (withSign negative n).natAbs = n := by
  cases negative <;> simp [withSign]

/-- The number of an operand is a bit pattern or a decimal with its sign. -/
theorem number?_cases {word : Text} {n : Int} (h : number? word = some n) :
    (∃ (base : Nat) (digits : Text) (magnitude : Nat), pattern? word = some (base, digits) ∧
      natural? base digits = some magnitude ∧ n = magnitude) ∨
    (pattern? word = none ∧ ∃ magnitude : Nat,
      natural? 10 (takeSign word).2 = some magnitude ∧ n = withSign (takeSign word).1 magnitude) := by
  unfold number? at h
  split at h
  · rename_i base digits mark
    split at h
    · rename_i magnitude natural
      split at h
      · cases h
        exact .inl ⟨base, digits, magnitude, mark, natural, rfl⟩
      · cases h
    · cases h
  · rename_i unmarked
    unfold integer? at h
    split at h
    · rename_i magnitude natural
      dsimp only at h
      split at h
      · cases h
        exact .inr ⟨unmarked, magnitude, natural, rfl⟩
      · cases h
    · cases h

/-- Operands and data values agree about bit patterns. -/
theorem marked_of_pattern {word digits : Text} {bits n : Nat} {value : Int}
    (mark : pattern? word = some (base, digits)) (operand : natural? base digits = some n)
    (item : marked bits word = .ok value) : value = n := by
  obtain ⟨magnitude, rfl, -, scanned⟩ := exists_scan_of_marked item
  obtain ⟨unsigned, behind⟩ := takeBase_of_pattern? mark (ne_nil_of_natural? operand)
  have small : base ≤ 36 := by
    rcases Core.pattern?_eq_some mark with ⟨rfl, -⟩ | ⟨rfl, -⟩ <;> decide
  have digits := digits?_of_natural? operand
  rw [unsigned] at scanned ⊢
  dsimp only at scanned
  rw [behind] at scanned
  have read := digits?_of_scan (separator_not_mem small digits) scanned
  rw [digits, Option.some.injEq] at read
  rw [read]
  rfl

/-- A decimal without a zero in front is the same data value; with one its digits are read in base
eight. -/
theorem marked_of_decimal {word : Text} {bits n : Nat} {value : Int}
    (operand : natural? 10 (takeSign word).2 = some n) (item : marked bits word = .ok value) :
    ∃ magnitude, value = withSign (takeSign word).1 magnitude ∧
      if (takeSign word).2.head? = some (.scalar '0') then
        natural? 8 (takeSign word).2 = some magnitude
      else magnitude = n := by
  obtain ⟨magnitude, rfl, -, scanned⟩ := exists_scan_of_marked item
  have digits := digits?_of_natural? operand
  have plain := separator_not_mem (by decide) digits
  refine ⟨magnitude, rfl, ?_⟩
  rw [takeBase_of_decimal operand] at scanned
  split
  · rename_i zero
    rw [if_pos zero] at scanned
    obtain ⟨rest, body⟩ := List.head?_eq_some_iff.mp zero
    rw [body] at scanned plain ⊢
    have others := digits?_of_scan (fun member => plain (List.mem_cons_of_mem _ member)) scanned
    exact natural?_of_digits? others (List.cons_ne_nil _ _)
  · rename_i other
    rw [if_neg other] at scanned
    have read := digits?_of_scan plain scanned
    rw [digits, Option.some.injEq] at read
    exact read.symm

end Literal

namespace DataList

open Literal

/-! ### Lists of one value -/

/-- Every item is a literal for its value. -/
theorem forall₂_of_parseItems {seen values : List Int32} {items : List Text}
    (h : parseItems seen items = .ok values) :
    ∃ later, values = seen.reverse ++ later ∧
      List.Forall₂ (fun item v => ∃ value : Int,
        marked 32 (Text.trim item) = .ok value ∧ v = Int32.ofInt value) items later := by
  induction items generalizing seen with
  | nil =>
    cases h
    exact ⟨[], (List.append_nil _).symm, .nil⟩
  | cons item rest ih =>
    unfold parseItems at h
    split at h
    · rename_i value read
      obtain ⟨later, rfl, others⟩ := ih h
      exact ⟨Int32.ofInt value :: later, by simp, .cons ⟨value, read, rfl⟩ others⟩
    · cases h

/-- A word that is a list of one value is a literal for it. -/
theorem marked_of_parse {word : Text} {v : Int32} (filled : word ≠ [])
    (solid : ∀ g ∈ word, g.isBlank = false) (h : parse word = .ok (some [v])) :
    marked 32 word = .ok v.toInt := by
  have trimmed : word.trim = word :=
    Text.trim_word filled (fun g member => solid g (List.mem_of_head? member))
      (fun g member => solid g (List.mem_of_getLast? member))
  have written : word.isEmpty = false := by simpa using filled
  simp only [parse, trimmed, written, Bool.false_eq_true, if_false] at h
  cases parsed : parseItems [] (word.split (· = .scalar ',')) with
  | error error =>
    rw [parsed] at h
    cases h
  | ok values =>
    rw [parsed] at h
    obtain rfl : values = [v] := Option.some.inj (Except.ok.inj h)
    obtain ⟨later, single, items⟩ := forall₂_of_parseItems parsed
    obtain rfl : [v] = later := single
    -- there is one item only, so that the word has no comma
    have uncut : word.countP (· = .scalar ',') = 0 := by
      have length := items.length_eq
      rw [Text.length_split] at length
      simpa using length
    have whole : word.split (· = .scalar ',') = [word] :=
      Text.split_of_neg fun g member => by simpa using List.countP_eq_zero.mp uncut g member
    rw [whole] at items
    obtain ⟨⟨value, read, rfl⟩, -⟩ := List.forall₂_cons.mp items
    rw [trimmed] at read
    obtain ⟨-, -, fitting, -⟩ := exists_scan_of_marked read
    have bounds : -2 ^ 31 ≤ value ∧ value < 2 ^ 31 := by simpa [fits] using fitting
    rw [read, Int32.toInt_ofInt_of_le (by omega) (by omega)]

end DataList

/-- **Operands and data values agree but for octal literals.** A text that is read both as the
number of an operand and as a list of one data value is the same number in both, unless it has a
zero in front that is not part of the mark of a bit pattern and a magnitude of ten or more. With a
zero in front, the operand has the digits of the text in base ten and the data value has them in
base eight. -/
theorem literals_agree_iff {word : Text} {n : Int} {v : Int32}
    (operand : Assembly.number? word = some n) (item : DataList.parse word = .ok (some [v])) :
    (v.toInt = n ↔ ¬ (Literal.zeroLed word = true ∧ 10 ≤ n.natAbs)) ∧
    (Literal.zeroLed word = true → ∃ ten eight : Nat,
      Literal.natural? 10 (Literal.takeSign word).2 = some ten ∧
      Literal.natural? 8 (Literal.takeSign word).2 = some eight ∧
      n = Literal.withSign (Literal.takeSign word).1 ten ∧
      v.toInt = Literal.withSign (Literal.takeSign word).1 eight) := by
  have read : Literal.marked 32 word = .ok v.toInt := by
    obtain ⟨number, rfl⟩ := Core.exists_number_of_number? operand
    obtain ⟨g, rest, text, -, -⟩ := number.exists_text
    exact DataList.marked_of_parse (by rw [text]; exact List.cons_ne_nil g rest)
      (fun g member => Core.isBlank_of_inWord (number.inWord g member)) item
  rcases Literal.number?_cases operand with ⟨base, digits, magnitude, mark, natural, rfl⟩ |
    ⟨unmarked, ten, decimal, rfl⟩
  · have pattern : Literal.zeroLed word = false := by simp [Literal.zeroLed, mark]
    simp [pattern, Literal.marked_of_pattern mark natural read]
  · obtain ⟨eight, value, reading⟩ := Literal.marked_of_decimal decimal read
    have led : Literal.zeroLed word = true ↔
        (Literal.takeSign word).2.head? = some (.scalar '0') := by
      simp [Literal.zeroLed, unmarked]
    have magnitude := Literal.natAbs_withSign (Literal.takeSign word).1 ten
    rw [value, Literal.withSign_inj, led, magnitude]
    split at reading
    · rename_i zero
      have worth := (Literal.octal_le (Literal.digits?_of_natural? decimal)
        (Literal.digits?_of_natural? reading) (Nat.le_refl 0) (by simp)).2
      refine ⟨?_, fun _ => ⟨ten, eight, decimal, reading, rfl, rfl⟩⟩
      simp [zero, worth]
    · rename_i other
      exact ⟨by simp [other, reading], fun zero => absurd zero other⟩

/-- Below ten a literal with a zero in front is the same number in both readings, and from there on
it is not. -/
theorem literals_agree_iff_octal :
    Assembly.number? (Text.ofString "-07") = some (-7) ∧
    DataList.parse (Text.ofString "-07") = .ok (some [-7]) ∧
    (-7 : Int32).toInt = -7 ∧
    Assembly.number? (Text.ofString "-017") = some (-17) ∧
    DataList.parse (Text.ofString "-017") = .ok (some [-15]) ∧
    (-15 : Int32).toInt ≠ -17 ∧
    Literal.zeroLed (Text.ofString "-017") = true ∧
    ∃ ten eight : Nat, Literal.natural? 10 (Text.ofString "017") = some ten ∧
      Literal.natural? 8 (Text.ofString "017") = some eight ∧
      -17 = Literal.withSign true ten ∧ (-15 : Int32).toInt = Literal.withSign true eight := by
  have small : Assembly.number? (Text.ofString "-07") = some (-7) := by decide
  have smallItem : DataList.parse (Text.ofString "-07") = .ok (some [-7]) := by decide +kernel
  have large : Assembly.number? (Text.ofString "-017") = some (-17) := by decide
  have largeItem : DataList.parse (Text.ofString "-017") = .ok (some [-15]) := by decide +kernel
  have led : Literal.zeroLed (Text.ofString "-017") = true := by decide
  obtain ⟨agree, -⟩ := literals_agree_iff small smallItem
  obtain ⟨part, readings⟩ := literals_agree_iff large largeItem
  exact ⟨small, smallItem, agree.mpr (by decide), large, largeItem,
    fun same => part.mp same ⟨led, by decide⟩, led, readings led⟩

/-- A text that is read both as an operand and as a data value need not be the same number. -/
theorem not_literals_agree_ten :
    ¬ ∀ (word : Text) (n : Int) (v : Int32), Assembly.number? word = some n →
      DataList.parse word = .ok (some [v]) → v.toInt = n := by
  intro agree
  have same := agree (Text.ofString "010") 10 8 (by decide) (by decide +kernel)
  exact absurd same (by decide)

end StackMachine
