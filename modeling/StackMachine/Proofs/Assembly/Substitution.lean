import StackMachine.Proofs.Assembly.LineNumbers
import StackMachine.Proofs.Dictionaries

/-!
# What substitution leaves of a text

Before a line is cut into words its quoted characters become digits. So whatever stands in the
words and has no digits stood in the source text already: a text that does not mention an
expression or the equate of the current line does not come to do so. Without expressions nothing
else is replaced, and without mention of the current line the equate that holds it does not count.

## Main definitions

* `Assembly.Within`: text without digits stands in one text only if it stands in another.
* `Assembly.Unnumbered`: texts without expressions and mention of the current line.
* `Assembly.SameElsewhere`: equates that agree but for the one of the current line.

## Main results

* `Assembly.within_replaceCharacters`: replacing quoted characters brings in digits only.
* `Assembly.Unnumbered.replaceExpressions`: nothing else is replaced without expressions.
* `Assembly.SameElsewhere.operandOf`: the equate of the current line does not count in an operand
  that does not name it.
-/

namespace StackMachine

namespace Assembly

/-! ### Quoted characters -/

/-- A text without digits. -/
def Digitless (t : Text) : Prop :=
  ∀ c, .scalar c ∈ t → c.isDigit = false

/-- What has no digits stands in `s` only if it stands in `t`, and at the front of `s` only if it
stands at the front of `t`. -/
structure Within (s t : Text) : Prop where
  front : ∀ p, Digitless p → p <+: s → p <+: t
  part : ∀ p, Digitless p → p <:+: s → p <:+: t

namespace Within

variable {s t : Text}

theorem nil : Within [] [] :=
  ⟨fun _ _ h => h, fun _ _ h => h⟩

theorem cons (g : Glyph) (within : Within s t) : Within (g :: s) (g :: t) := by
  have front : ∀ p, Digitless p → p <+: g :: s → p <+: g :: t := by
    intro p digitless h
    rcases List.prefix_cons_iff.mp h with rfl | ⟨q, rfl, rest⟩
    · exact List.nil_prefix
    · have behind : q <+: t :=
        within.front q (fun c member => digitless c (List.mem_cons_of_mem g member)) rest
      exact (List.prefix_cons_inj g).mpr behind
  refine ⟨front, fun p digitless h => ?_⟩
  rcases List.infix_cons_iff.mp h with first | later
  · exact (front p digitless first).isInfix
  · exact (within.part p digitless later).trans (List.suffix_cons g t).isInfix

theorem append (w : Text) (within : Within s t) : Within (w ++ s) (w ++ t) := by
  induction w with
  | nil => exact within
  | cons g w ih => exact ih.cons g

/-- Digits may stand for any text. -/
theorem number (within : Within s t) (n : Nat) (w : Text) :
    Within (Text.ofString (Numeral.decimal n) ++ s) (w ++ t) := by
  have digits : ∀ g ∈ Text.ofString (Numeral.decimal n), ∃ c, g = .scalar c ∧ c.isDigit = true :=
    fun g => Numeral.isDigit_of_mem_decimal
  have filled : Text.ofString (Numeral.decimal n) ≠ [] := by
    have natural : ¬ (n : Int) < 0 := by omega
    simp [Text.ofString, Numeral.decimal, Numeral.signed, natural, Nat.toDigits_ne_nil]
  generalize Text.ofString (Numeral.decimal n) = ds at digits filled
  -- text without digits that begins at a digit is empty
  have empty : ∀ {d : Glyph} {p rest : Text}, d ∈ ds → Digitless p → p <+: d :: rest → p = [] := by
    intro d p rest member digitless h
    rcases List.prefix_cons_iff.mp h with rfl | ⟨q, rfl, -⟩
    · rfl
    · obtain ⟨c, rfl, digit⟩ := digits d member
      have other := digitless c List.mem_cons_self
      rw [digit] at other
      cases other
  constructor
  · intro p digitless h
    obtain ⟨d, rest, rfl⟩ := List.exists_cons_of_ne_nil filled
    rw [empty List.mem_cons_self digitless h]
    exact List.nil_prefix
  · intro p digitless h
    have behind : p <:+: s := by
      clear filled
      induction ds with
      | nil => exact h
      | cons d ds ih =>
        rcases List.infix_cons_iff.mp h with first | later
        · rw [empty List.mem_cons_self digitless first]
          exact List.nil_infix
        · exact ih (fun g member => digits g (List.mem_cons_of_mem d member))
            (fun member => empty (List.mem_cons_of_mem d member)) later
    exact (within.part p digitless behind).trans (List.suffix_append w t).isInfix

/-- The number of a quoted character, or the quotation itself. -/
theorem characterText (within : Within s t) (code : Option Nat) (quotation : Text) :
    Within (characterText code quotation ++ s) (quotation ++ t) := by
  cases code with
  | none => exact within.append quotation
  | some n => exact within.number n quotation

end Within

/-- Replacing quoted characters brings in digits only. -/
theorem within_replaceCharacters (t : Text) : Within (replaceCharacters t) t := by
  fun_induction replaceCharacters t with
  | case1 rest ih => exact ((ih.cons _).cons _).cons _
  | case2 g rest _ ih => exact ih.characterText (escapeCode? g) _
  | case3 rest _ ih => exact ih.cons _
  | case4 g rest _ _ ih => exact ih.characterText (plainCode? g) _
  | case5 g rest _ _ ih => exact ih.cons g
  | case6 => exact .nil

/-! ### Expressions -/

/-- Nothing is replaced in a line without expressions. -/
theorem replaceExpressions_of_not_infix [Interpreter] (equates : Dictionary Text) {line : Text}
    (h : ¬ Text.ofString "$(" <:+: line) : replaceExpressions equates line = .ok line := by
  have kept : ∀ w ∈ (line.pieces (· = .scalar '$')).2,
      replaceExpression equates w = .ok (.scalar '$' :: w) := by
    intro w member
    have part := Text.cons_infix_of_mem_pieces member
    have none : takeExpression? w = none := by
      unfold takeExpression?
      split
      · rename_i rest
        refine absurd (List.IsInfix.trans ?_ part) h
        exact ⟨[], rest, rfl⟩
      · rfl
    rw [replaceExpression, none]
  have failed (ws : List Text) :
      lastFailure? (ws.map fun w => (.ok (.scalar '$' :: w) : Except Text Text)) = none := by
    induction ws with
    | nil => rfl
    | cons w ws ih => exact ih
  have joined (ws : List Text) :
      successes (ws.map fun w => (.ok (.scalar '$' :: w) : Except Text Text)) =
        ws.flatMap (.scalar '$' :: ·) := by
    induction ws with
    | nil => rfl
    | cons w ws ih => rw [List.map_cons, successes, ih, List.flatMap_cons]
  unfold replaceExpressions
  dsimp only
  rw [List.map_congr_left kept, failed, joined, Text.pieces_append_flatMap]

/-- What stands before a comment is a part of the line. -/
theorem infix_stripComment (raw : Text) : stripComment raw <:+: raw := by
  have front : raw.upTo (.scalar ';') <+: raw := List.takeWhile_prefix _
  exact (Text.infix_trim _).trans front.isInfix

/-- Texts without expressions and mention of the current line. -/
structure Unnumbered (t : Text) : Prop where
  expressionless : ¬ Text.ofString "$(" <:+: t
  unnamed : ¬ lineName <:+: t

namespace Unnumbered

variable {s t : Text}

theorem of_part (unnumbered : Unnumbered t) (part : s <:+: t) : Unnumbered s where
  expressionless := fun h => unnumbered.expressionless (h.trans part)
  unnamed := fun h => unnumbered.unnamed (h.trans part)

theorem stripComment (unnumbered : Unnumbered t) : Unnumbered (stripComment t) :=
  unnumbered.of_part (infix_stripComment t)

theorem replaceCharacters (unnumbered : Unnumbered t) : Unnumbered (replaceCharacters t) where
  expressionless := fun h => by
    have digitless : Digitless (Text.ofString "$(") := by simp [Digitless, Text.ofString]
    exact unnumbered.expressionless ((within_replaceCharacters t).part _ digitless h)
  unnamed := fun h => by
    have digitless : Digitless lineName := by simp [Digitless, lineName, Text.ofString]
    exact unnumbered.unnamed ((within_replaceCharacters t).part _ digitless h)

/-- Of a line without expressions only the quoted characters are replaced. -/
theorem replaceExpressions [Interpreter] (unnumbered : Unnumbered t) (equates : Dictionary Text) :
    replaceExpressions equates (Assembly.replaceCharacters t) =
      .ok (Assembly.replaceCharacters t) :=
  replaceExpressions_of_not_infix equates unnumbered.replaceCharacters.expressionless

end Unnumbered

/-! ### The equate of the current line -/

/-- Equates that agree but for the one of the current line. -/
def SameElsewhere (d e : Dictionary Text) : Prop :=
  ∀ name, name ≠ lineName → d.find? name = e.find? name

namespace SameElsewhere

variable {d e : Dictionary Text} {word : Text}

theorem ne_lineName (unnamed : ¬ lineName <:+: word) : word ≠ lineName := by
  rintro rfl
  exact unnamed List.infix_rfl

theorem find? (same : SameElsewhere d e) (unnamed : ¬ lineName <:+: word) :
    d.find? word = e.find? word :=
  same word (ne_lineName unnamed)

theorem atLine (same : SameElsewhere d e) (value value' : Text) :
    SameElsewhere (d.set lineName value) (e.set lineName value') := by
  intro name other
  rw [Dictionary.find?_set_of_ne _ _ (Ne.symm other),
    Dictionary.find?_set_of_ne _ _ (Ne.symm other), same name other]

theorem set (same : SameElsewhere d e) (name value : Text) :
    SameElsewhere (d.set name value) (e.set name value) :=
  fun other ne => Dictionary.find?_set_congr (same other ne) name value

theorem replaceEquates (same : SameElsewhere d e) {words : List Text}
    (unnamed : ∀ w ∈ words, ¬ lineName <:+: w) :
    replaceEquates d words = replaceEquates e words :=
  List.map_congr_left fun w member => by rw [same.find? (unnamed w member)]

/-- The equate of the current line does not count in an operand that does not name it. -/
theorem operandOf (same : SameElsewhere d e) (unnamed : ¬ lineName <:+: word) :
    operandOf d word = operandOf e word := by
  unfold Assembly.operandOf
  split_ifs
  · split
    · rfl
    · rename_i inner between
      have part : inner <:+: word := by
        unfold bracketed? at between
        split_ifs at between
        cases between
        exact (List.dropLast_prefix _).isInfix.trans (List.tail_suffix _).isInfix
      rw [same.find? fun h => unnamed (h.trans part)]
  · rfl

end SameElsewhere

end Assembly

end StackMachine
