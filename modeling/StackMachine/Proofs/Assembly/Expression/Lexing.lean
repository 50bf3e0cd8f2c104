import StackMachine.Proofs.Assembly.CoreLine
import StackMachine.Proofs.Assembly.CoreWriting
import StackMachine.Proofs.Assembly.Expression.Forms

/-!
# The tokens of integer expressions

How the written form of an expression is cut into tokens. Each number, name and mark is one token,
wherever it stands, as long as what follows does not go on with it; blanks are none. The tokens of
an expression are those of its parts, one after another.

## Main definitions

* `Expression.Form.Spells`: the tokens of an expression.
* `Expression.Cuts`: the tokens that a part of a text is cut into.

## Main results

* `Expression.Form.cuts`: the written form of an expression is cut into its tokens.
* `Expression.Form.exists_tokens?`: so is a text that holds nothing else.
-/

namespace StackMachine

namespace Assembly

namespace Expression

/-- The tokens of an expression: parentheses have numbers of their own. -/
def Form.Spells {closed : Bool} : Form closed → List Token → Prop
  | .number n, ts => ts = [.int n]
  | .name n, ts => ts = [.name n.text]
  | .parens _ x _, ts =>
    ∃ number inner, x.Spells inner ∧ ts = .openParen number :: (inner ++ [.mark .closeParen])
  | .negate _ x, ts => ∃ inner, x.Spells inner ∧ ts = .mark .minus :: inner
  | .binary op x _ _ y, ts =>
    ∃ left right, x.Spells left ∧ y.Spells right ∧ ts = left ++ .mark op.mark :: right

/-! ### Parts of a text -/

/-- Where `depth` brackets are open, the text `w` before `rest` is cut into tokens that satisfy `P`,
and behind them `depth'` brackets are open. -/
def Cuts (rest : Text) (depth depth' : Nat) (w : Text) (P : List Token → Prop) : Prop :=
  ∀ fuel seen, (w ++ rest).length ≤ fuel → ∃ ts fuel', P ts ∧ rest.length ≤ fuel' ∧
    tokensWithin? fuel depth seen (w ++ rest) =
      tokensWithin? fuel' depth' (ts.reverse ++ seen) rest

section Cuts

variable {rest v w : Text} {depth depth' depth'' : Nat} {P Q : List Token → Prop}

theorem Cuts.imp (cuts : Cuts rest depth depth' w P) (h : ∀ ts, P ts → Q ts) :
    Cuts rest depth depth' w Q := by
  intro fuel seen enough
  obtain ⟨ts, fuel', holds, left, same⟩ := cuts fuel seen enough
  exact ⟨ts, fuel', h ts holds, left, same⟩

/-- The tokens of two parts are those of the first and then those of the second. -/
theorem Cuts.append (first : Cuts (w ++ rest) depth depth' v P)
    (second : Cuts rest depth' depth'' w Q) :
    Cuts rest depth depth'' (v ++ w) fun ts => ∃ a b, P a ∧ Q b ∧ ts = a ++ b := by
  intro fuel seen enough
  rw [List.append_assoc] at enough ⊢
  obtain ⟨a, middle, holdsA, left, same⟩ := first fuel seen enough
  obtain ⟨b, fuel', holdsB, left', same'⟩ := second middle (a.reverse ++ seen) left
  exact ⟨a ++ b, fuel', ⟨a, b, holdsA, holdsB, rfl⟩, left', by
    rw [same, same', List.reverse_append, List.append_assoc]⟩

/-- Blanks are no tokens. -/
theorem Cuts.gap (gap : Core.Gap) (rest : Text) (depth : Nat) :
    Cuts rest depth depth gap.text (· = []) := by
  obtain ⟨text, blank⟩ := gap
  induction text with
  | nil => exact fun fuel seen enough => ⟨[], fuel, rfl, enough, rfl⟩
  | cons g text ih =>
    rw [List.forall_mem_cons] at blank
    intro fuel seen enough
    cases fuel with
    | zero => simp at enough
    | succ fuel =>
      obtain ⟨ts, fuel', rfl, left, same⟩ := ih blank.2 fuel seen (by simpa using enough)
      refine ⟨[], fuel', rfl, left, same ▸ ?_⟩
      rcases blank.1 with rfl | rfl <;> rfl

/-- A character that can begin a token. -/
def beginsToken (c : Char) : Bool :=
  c ∉ ['\x00', ' ', '\t', '#', '\r', '\\']

/-- A token at the front of a text, which may open or close a bracket. -/
theorem Cuts.token {c : Char} {P : Token → Prop} (begins : beginsToken c = true)
    (first : ∀ number, ∃ token, first? number c (w ++ rest) = some (token, rest) ∧
      depthBehind? depth token = some depth' ∧ token ≠ .mark .inWord ∧ P token) :
    Cuts rest depth depth' (.scalar c :: w) fun ts => ∃ token, P token ∧ ts = [token] := by
  intro fuel seen enough
  cases fuel with
  | zero => simp at enough
  | succ fuel =>
    obtain ⟨token, read, behind, single, holds⟩ := first (fuel + 1)
    refine ⟨[token], fuel, ⟨token, holds, rfl⟩, ?_, ?_⟩
    · simp only [List.cons_append, List.length_cons, List.length_append] at enough
      omega
    · have push : pushToken token seen = token :: seen := by
        unfold pushToken
        split
        · exact absurd rfl single
        · rfl
      simp only [beginsToken, List.mem_cons, List.not_mem_nil, or_false, not_or,
        decide_eq_true_eq] at begins
      obtain ⟨zero, space, tab, comment, ret, backslash⟩ := begins
      rw [List.cons_append, tokensWithin?]
      simp [zero, space, tab, comment, ret, backslash, read, behind, push]

end Cuts

/-! ### Where a number or a name ends -/

/-- The glyphs that can stand behind an operand. -/
def endsOperand (g : Glyph) : Bool :=
  g ∈ (" \t)+-*/%" : Text)

/-- What follows does not go on with a number or a name. -/
def Stops (rest : Text) : Prop :=
  ∀ g ∈ rest.head?, endsOperand g = true

theorem of_endsOperand {g : Glyph} (h : endsOperand g = true) :
    continuesName g = false ∧ g ∉ (".\"'" : Text) := by
  have all : ∀ g ∈ (" \t)+-*/%" : Text), continuesName g = false ∧ g ∉ (".\"'" : Text) := by decide
  exact all g (of_decide_eq_true h)

theorem Stops.nil : Stops [] := by
  rintro g ⟨⟩

theorem Stops.cons {g : Glyph} (h : endsOperand g = true) (rest : Text) : Stops (g :: rest) := by
  rintro k ⟨⟩
  exact h

theorem Stops.gap (gap : Core.Gap) {rest : Text} (stops : Stops rest) :
    Stops (gap.text ++ rest) := by
  obtain ⟨text, blank⟩ := gap
  cases text with
  | nil => exact stops
  | cons g text =>
    refine .cons ?_ _
    rcases blank g List.mem_cons_self with rfl | rfl <;> decide

theorem Stops.sign (op : IntegerOp) (rest : Text) : Stops (op.text ++ rest) := by
  cases op <;> exact .cons (by decide) _

theorem isDigit_eq_false {g : Glyph} (h : continuesName g = false) : isDigit g = false :=
  (Bool.or_eq_false_iff.mp h).1

/-! ### Numbers -/

theorem isDigit_of_mem_text (ds : Core.Digits 10) {g : Glyph} (h : g ∈ ds.text) :
    isDigit g = true := by
  obtain ⟨d, -, rfl⟩ := List.mem_map.mp h
  rw [isDigit, Core.digit?_char (by decide)]
  rfl

/-- A number that is not zero has no zeros in front. -/
theorem head_decimalDigits {n : Nat} (positive : n ≠ 0) :
    ∀ d ∈ (Core.decimalDigits n).head?, Glyph.scalar d.char ≠ .scalar '0' := by
  induction n using Core.decimalDigits.induct with
  | case1 n small =>
    have all : ∀ k : Fin 10, k.val ≠ 0 →
        Glyph.scalar (Core.Digit.char ⟨k, false⟩) ≠ .scalar '0' := by
      decide
    rw [Core.decimalDigits, dif_pos small]
    rintro d ⟨⟩
    exact all ⟨n, small⟩ positive
  | case2 n large ih =>
    rw [Core.decimalDigits, dif_neg large,
      List.head?_append_of_ne_nil _ (Core.decimalDigits_ne_nil _)]
    exact ih (by omega)

/-- Decimals are no numbers with forbidden zeros in front. -/
theorem not_leadingZero (n : Nat) :
    ((Core.Digits.ofNat n).text.head? = some (.scalar '0') &&
      !(Core.Digits.ofNat n).text.all (· = .scalar '0')) = false := by
  by_cases zero : n = 0
  · rw [zero, Core.Digits.text_ofNat]
    decide
  · have front := head_decimalDigits zero
    cases digits : Core.decimalDigits n with
    | nil => exact absurd digits (Core.decimalDigits_ne_nil n)
    | cons d ds =>
      rw [digits] at front
      have first := front d rfl
      simp [Core.Digits.text, Core.Digits.ofNat, digits, first]

theorem decimalToken?_decimal (n : Nat) {rest : Text} (stops : Stops rest) :
    decimalToken? ((Core.Digits.ofNat n).text ++ rest) = some (.int n, rest) := by
  obtain ⟨whole, behind⟩ := Text.takeWhile_append_stop (p := isDigit)
    (fun g => isDigit_of_mem_text (.ofNat n))
    (fun g hg => isDigit_eq_false (of_endsOperand (stops g hg)).1)
  have read := Core.natural?_text (by decide) (Core.Digits.ofNat n)
  rw [Core.Digits.value_ofNat] at read
  have noFloat : ∀ e ∈ ("eE" : Text), rest.head? ≠ some e := by
    intro e member same
    have ends := (of_endsOperand (stops e same)).1
    have all : ∀ e ∈ ("eE" : Text), continuesName e = true := by decide
    rw [all e member] at ends
    cases ends
  have small := noFloat (.scalar 'e') (by decide)
  have capital := noFloat (.scalar 'E') (by decide)
  simp only [decimalToken?, whole, behind]
  split
  · exact absurd (by decide) (of_endsOperand (stops (.scalar '.') rfl)).2
  · simp [small, capital, not_leadingZero, read]

theorem number?_decimal (n : Nat) {rest : Text} (stops : Stops rest) :
    number? ((Core.Digits.ofNat n).text ++ rest) = some (.int n, rest) := by
  rw [← decimalToken?_decimal n stops]
  unfold number?
  split
  · rename_i m behind text
    -- the second glyph is a digit or stands behind the number
    have unmarked : m ∉ ['x', 'X', 'o', 'O', 'b', 'B'] := by
      have all : ∀ m ∈ ['x', 'X', 'o', 'O', 'b', 'B'],
          isDigit (.scalar m) = false ∧ endsOperand (.scalar m) = false := by
        rw [← List.forall_iff_forall_mem]
        decide
      intro member
      obtain ⟨d, ds, digits⟩ := (Core.Digits.ofNat n).exists_text
      have inside : ∀ g ∈ ds.map fun d => Glyph.scalar d.char, isDigit g = true := fun g hg =>
        isDigit_of_mem_text (.ofNat n) (by rw [digits]; exact List.mem_cons_of_mem _ hg)
      rw [digits, List.cons_append, List.cons.injEq] at text
      cases ds with
      | nil =>
        have ends := stops (.scalar m) (by rw [show rest = _ from text.2]; rfl)
        rw [(all m member).2] at ends
        cases ends
      | cons d ds =>
        have digit := inside (.scalar m) (by
          have second := congrArg List.head? text.2
          simp only [List.map_cons, List.cons_append, List.head?_cons, Option.some.injEq] at second
          rw [← second]
          exact List.mem_cons_self)
        rw [(all m member).1] at digit
        cases digit
    simp only [List.mem_cons, List.not_mem_nil, or_false, not_or] at unmarked
    simp [unmarked, text]
  · rfl

/-- A decimal is one token. -/
theorem Cuts.number (n : Nat) {rest : Text} (stops : Stops rest) (depth : Nat) :
    Cuts rest depth depth (Text.ofString (Numeral.decimal n)) (· = [.int n]) := by
  have text : Text.ofString (Numeral.decimal n) = (Core.Digits.ofNat n).text := by
    rw [← Core.Number.text_ofInt]
    rfl
  obtain ⟨d, ds, digits⟩ := (Core.Digits.ofNat n).exists_text
  have begins : ∀ value capital, beginsToken (⟨value, capital⟩ : Core.Digit 10).char = true := by
    decide
  rw [text, digits]
  refine (Cuts.token (P := (· = .int n)) (begins d.value d.capital)
    fun number => ⟨.int n, ?_, rfl, nofun, rfl⟩).imp ?_
  · have read := number?_decimal n stops
    rw [digits] at read
    rw [first?, Core.isDigit_char d, Bool.true_or, if_pos rfl]
    exact read
  · rintro ts ⟨token, rfl, rfl⟩
    rfl

/-! ### Names -/

theorem wordToken?_name (number : Nat) (n : Name) :
    wordToken? number n.text = some (.name n.text) := by
  obtain ⟨text, -, ⟨keyword, function, reserved⟩, -⟩ := n
  have none : keywords.find? (·.1 = text) = none := by
    rw [List.find?_eq_none]
    rintro entry member same
    exact keyword (of_decide_eq_true same ▸ List.mem_map_of_mem member)
  have unreserved : Expression.reserved.any (· = text) = false := by
    simp only [List.any_eq_false, decide_eq_true_eq]
    rintro word member rfl
    exact reserved member
  rw [wordToken?, none]
  simp [function, unreserved]

theorem not_quote_of_continuesName {g : Glyph} (h : continuesName g = true) :
    g ∉ ("\"'" : Text) := by
  have all : ∀ g ∈ ("\"'" : Text), continuesName g = false := by decide
  intro member
  rw [all g member] at h
  cases h

section Word

variable {w rest : Text} (word : ∀ g ∈ w, continuesName g = true) (stops : Stops rest)

include word stops

theorem not_quote_head : ∀ g ∈ (w ++ rest).head?, g ∉ ("\"'" : Text) := by
  cases w with
  | nil =>
    intro g hg member
    have all : ∀ g ∈ ("\"'" : Text), g ∈ (".\"'" : Text) := by decide
    exact (of_endsOperand (stops g hg)).2 (all g member)
  | cons k w =>
    rintro g ⟨⟩
    exact not_quote_of_continuesName (word k List.mem_cons_self)

/-- A word is no mark of a string. -/
theorem stringStart?_word (nonempty : w ≠ []) : stringStart? (w ++ rest) = none := by
  have whole := not_quote_head word stops
  obtain ⟨g, w, rfl⟩ := List.exists_cons_of_ne_nil nonempty
  rw [List.forall_mem_cons] at word
  have behind := not_quote_head word.2 stops
  rw [List.cons_append] at whole ⊢
  unfold stringStart?
  split
  rename_i form body start
  have front : ∀ g ∈ body.head?, g ∉ ("\"'" : Text) := by
    split at start
    · rename_i body' text
      cases start
      -- the second letter belongs to the word
      rw [List.cons.injEq] at text
      cases w with
      | nil =>
        have next : rest.head? = some (.scalar 'b') := by
          rw [show rest = _ from text.2]
          rfl
        have ends := (of_endsOperand (stops _ next)).1
        cases ends.symm.trans (by decide : continuesName (.scalar 'b') = true)
      | cons k w =>
        rw [List.cons_append, List.cons.injEq] at text
        have later := not_quote_head (List.forall_mem_cons.mp word.2).2 stops
        rwa [text.2.2] at later
    · rename_i text
      cases start
      rw [List.cons.injEq] at text
      rwa [text.2] at behind
    · rename_i text
      cases start
      rw [List.cons.injEq] at text
      rwa [text.2] at behind
    · cases start
      exact whole
  split
  · rename_i q _
    cases quote : isQuote q with
    | false => rfl
    | true =>
      simp only [isQuote, Bool.or_eq_true, decide_eq_true_eq] at quote
      rcases quote with rfl | rfl <;> exact absurd (by decide) (front _ rfl)
  · rfl

end Word

/-- No name begins with a digit. -/
theorem isDigit_of_startsName {c : Char} (starts : startsName (.scalar c) = true) :
    c.isDigit = false := by
  cases digit : c.isDigit with
  | false => rfl
  | true =>
    have bounds : 48 ≤ c.toNat ∧ c.toNat ≤ 57 := by
      simpa [Char.isDigit, UInt32.le_iff_toNat_le] using digit
    simp only [startsName, Bool.or_eq_true, decide_eq_true_eq] at starts
    rcases starts with rfl | letter
    · cases digit
    · rw [Letter.contains, if_pos (by omega)] at letter
      have limits := Core.isAlpha_bounds letter
      omega

/-- A name is one token. -/
theorem Cuts.name (n : Name) {rest : Text} (stops : Stops rest) (depth : Nat) :
    Cuts rest depth depth n.text (· = [.name n.text]) := by
  obtain ⟨c, w, text, starts⟩ := n.exists_text
  have word := n.continuesName
  have other : ∀ d ∈ ['\x00', ' ', '\t', '#', '\r', '\\', '.'], c ≠ d := by
    have all : ∀ d ∈ ['\x00', ' ', '\t', '#', '\r', '\\', '.'], startsName (.scalar d) = false := by
      rw [← List.forall_iff_forall_mem]
      decide
    rintro d member rfl
    rw [all c member] at starts
    cases starts
  have noDigit := isDigit_of_startsName starts
  have begins : beginsToken c = true := by
    rw [beginsToken, decide_eq_true_eq]
    exact fun member => other c (List.mem_append_left ['.'] member) rfl
  obtain ⟨whole, behind⟩ := Text.takeWhile_append_stop word
    fun g hg => (of_endsOperand (stops g hg)).1
  have noString := stringStart?_word word stops (by rw [text]; nofun)
  have read := wordToken?_name
  rw [text] at whole behind noString ⊢
  refine (Cuts.token (P := (· = .name n.text)) begins
    fun number => ⟨.name n.text, ?_, rfl, nofun, rfl⟩).imp ?_
  · rw [first?]
    simp only [noDigit, other '.' (by decide), decide_false, Bool.false_and, Bool.or_self,
      Bool.false_eq_true, if_false]
    rw [List.cons_append] at whole behind noString
    simp only [noString, starts, if_true, whole, behind]
    rw [← text, wordToken?_name]
    rfl
  · rintro ts ⟨token, rfl, rfl⟩
    rw [text]

/-! ### Marks -/

theorem first?_mark {c : Char} (sign : c ∈ ['+', '-', '*', '/', '%', ')']) (number : Nat)
    (rest : Text) :
    first? number c rest = (mark? c rest).map fun (m, rest) => (.mark m, rest) := by
  have plain : ∀ c ∈ ['+', '-', '*', '/', '%', ')'],
      c.isDigit = false ∧ c ≠ '.' ∧ c ≠ '(' ∧ isQuote c = false ∧ c ≠ 'r' ∧ c ≠ 'b' ∧
        startsName (.scalar c) = false := by
    rw [← List.forall_iff_forall_mem]
    decide
  obtain ⟨noDigit, noPoint, noParen, noQuote, notRaw, notBytes, noName⟩ := plain c sign
  have noString : stringStart? (.scalar c :: rest) = none := by
    simp [stringStart?, noQuote, notRaw, notBytes]
  simp [first?, noDigit, noPoint, noParen, noString, noName]

/-- A mark of one character, unless it goes on as one of two. -/
theorem first?_single {c : Char} {m : Mark} (sign : c ∈ ['+', '-', '*', '/', '%', ')'])
    (named : singleMark? c = some m) {rest : Text}
    (alone : ∀ d, rest.head? = some (.scalar d) → doubleMark? c d = none) (number : Nat) :
    first? number c rest = some (.mark m, rest) := by
  rw [first?_mark sign]
  unfold mark?
  dsimp only
  split
  · rename_i d behind
    rw [alone d rfl, named]
    rfl
  · rw [named]
    rfl

theorem doubleMark?_eq_none {c d : Char} (h : c ∈ ['+', '-', '%', ')'] ∨ c = '*' ∧ d ≠ '*') :
    doubleMark? c d = none := by
  unfold doubleMark?
  split <;> simp_all

theorem beginsToken_of_sign : ∀ c ∈ ['+', '-', '*', '/', '%', ')'], beginsToken c = true := by
  rw [← List.forall_iff_forall_mem]
  decide

/-- The mark of an operation is one token. -/
theorem Cuts.mark {c : Char} {w rest : Text} (op : IntegerOp)
    (sign : c ∈ ['+', '-', '*', '/', '%', ')'])
    (first : ∀ number, first? number c (w ++ rest) = some (.mark op.mark, rest)) (depth : Nat) :
    Cuts rest depth depth (.scalar c :: w) (· = [.mark op.mark]) := by
  have inner : depthBehind? depth (.mark op.mark) = some depth := by cases op <;> rfl
  have single : Token.mark op.mark ≠ .mark .inWord := by cases op <;> nofun
  refine (Cuts.token (P := (· = .mark op.mark)) (beginsToken_of_sign c sign)
    fun number => ⟨.mark op.mark, first number, inner, single, rfl⟩).imp ?_
  rintro ts ⟨token, rfl, rfl⟩
  rfl

/-- An operation is one token. -/
theorem Cuts.sign (op : IntegerOp) {rest : Text} (apart : rest.head? ≠ some (.scalar '*'))
    (depth : Nat) : Cuts rest depth depth op.text (· = [.mark op.mark]) := by
  have alone {c : Char} (other : c ∈ ['+', '-', '%', ')']) (d : Char) : doubleMark? c d = none :=
    doubleMark?_eq_none (.inl other)
  cases op with
  | plus =>
    exact .mark (c := '+') .plus (by decide)
      (first?_single (by decide) rfl fun d _ => alone (by decide) d) depth
  | minus =>
    exact .mark (c := '-') .minus (by decide)
      (first?_single (by decide) rfl fun d _ => alone (by decide) d) depth
  | times =>
    refine .mark (c := '*') .times (by decide)
      (first?_single (by decide) rfl fun d same => doubleMark?_eq_none (.inr ⟨rfl, ?_⟩)) depth
    rintro rfl
    exact apart same
  | quotient =>
    refine .mark (c := '/') .quotient (by decide) (fun number => ?_) depth
    rw [first?_mark (by decide)]
    rfl
  | remainder =>
    exact .mark (c := '%') .remainder (by decide)
      (first?_single (by decide) rfl fun d _ => alone (by decide) d) depth

/-- An opening parenthesis is one token. -/
theorem Cuts.openParen (rest : Text) (depth : Nat) :
    Cuts rest depth (depth + 1) [.scalar '('] fun ts => ∃ number, ts = [.openParen number] := by
  refine (Cuts.token (P := fun token => ∃ number, token = .openParen number) (by decide)
    fun number => ⟨.openParen number, ?_, rfl, nofun, number, rfl⟩).imp ?_
  · rfl
  · rintro ts ⟨token, ⟨number, rfl⟩, rfl⟩
    exact ⟨number, rfl⟩

/-- A closing parenthesis is one token. -/
theorem Cuts.closeParen (rest : Text) (depth : Nat) :
    Cuts rest (depth + 1) depth [.scalar ')'] (· = [.mark .closeParen]) := by
  refine (Cuts.token (P := (· = .mark .closeParen)) (by decide)
    fun number => ⟨.mark .closeParen, ?_, rfl, nofun, rfl⟩).imp ?_
  · exact first?_single (by decide) rfl (fun d _ => doubleMark?_eq_none (.inl (by decide))) number
  · rintro ts ⟨token, rfl, rfl⟩
    rfl

/-! ### Expressions -/

namespace Form

/-- No expression starts with a star. -/
theorem exists_text {closed : Bool} (f : Form closed) :
    ∃ g w, f.text = g :: w ∧ g ≠ .scalar '*' := by
  induction f with
  | number n =>
    obtain ⟨d, ds, digits⟩ := (Core.Digits.ofNat n).exists_text
    refine ⟨_, _, (Core.Number.text_ofInt n).symm.trans digits, ?_⟩
    rintro same
    have digit := isDigit_of_mem_text (.ofNat n) (by rw [digits]; exact List.mem_cons_self)
    rw [same] at digit
    exact absurd digit (by decide)
  | name n =>
    obtain ⟨c, w, text, starts⟩ := n.exists_text
    refine ⟨_, w, text, ?_⟩
    rintro same
    rw [same] at starts
    exact absurd starts (by decide)
  | parens before x after => exact ⟨_, _, rfl, by decide⟩
  | negate gap x => exact ⟨_, _, rfl, by decide⟩
  | binary op x before after y ihx =>
    obtain ⟨g, w, text, other⟩ := ihx
    exact ⟨g, _, by rw [Form.text, text, List.cons_append], other⟩

/-- No star stands behind an operation. -/
theorem apart {closed : Bool} (f : Form closed) (gap : Core.Gap) (rest : Text) :
    (gap.text ++ (f.text ++ rest)).head? ≠ some (.scalar '*') := by
  obtain ⟨text, blank⟩ := gap
  cases text with
  | nil =>
    obtain ⟨g, w, text, other⟩ := f.exists_text
    rw [text]
    simpa using other
  | cons g text =>
    rcases blank g List.mem_cons_self with rfl | rfl <;> simp

/-- An expression before something that does not go on with it is cut into its tokens, and leaves
no bracket open. -/
theorem cuts {closed : Bool} (f : Form closed) {rest : Text} (stops : Stops rest) (depth : Nat) :
    Cuts rest depth depth f.text f.Spells := by
  induction f generalizing rest depth with
  | number n => exact .number n stops depth
  | name n => exact .name n stops depth
  | parens before x after ih =>
    have inner : Stops (after.text ++ [.scalar ')'] ++ rest) := by
      rw [List.append_assoc]
      exact (Stops.cons (by decide) rest).gap after
    refine ((Cuts.openParen _ depth).append ((Cuts.gap before _ _).append
      ((ih inner (depth + 1)).append ((Cuts.gap after _ _).append
        (Cuts.closeParen rest depth))))).imp ?_
    rintro ts ⟨_, _, ⟨number, rfl⟩,
      ⟨_, _, rfl, ⟨ts, _, spells, ⟨_, _, rfl, rfl, rfl⟩, rfl⟩, rfl⟩, rfl⟩
    exact ⟨number, ts, spells, rfl⟩
  | negate gap x ih =>
    have apart := x.apart gap rest
    rw [← List.append_assoc] at apart
    refine ((Cuts.sign .minus apart depth).append ((Cuts.gap gap _ _).append
      (ih stops depth))).imp ?_
    rintro ts ⟨_, _, rfl, ⟨_, _, rfl, spells, rfl⟩, rfl⟩
    exact ⟨_, spells, rfl⟩
  | binary op x before after y ihx ihy =>
    have inner : Stops (before.text ++ (op.text ++ (after.text ++ y.text)) ++ rest) := by
      rw [List.append_assoc, List.append_assoc]
      exact (Stops.sign op _).gap before
    have apart := y.apart after rest
    rw [← List.append_assoc] at apart
    refine ((ihx inner depth).append ((Cuts.gap before _ _).append
      ((Cuts.sign op apart depth).append ((Cuts.gap after _ _).append (ihy stops depth))))).imp ?_
    rintro ts ⟨_, _, spells, ⟨_, _, rfl, ⟨_, _, rfl, ⟨_, _, rfl, spells', rfl⟩, rfl⟩, rfl⟩, rfl⟩
    exact ⟨_, _, spells, spells', rfl⟩

/-- A text that holds an expression and blanks around it has the tokens of the expression. -/
theorem exists_tokens? {closed : Bool} (before : Core.Gap) (f : Form closed) (after : Core.Gap) :
    ∃ ts, f.Spells ts ∧ tokens? (before.text ++ (f.text ++ after.text)) = some ts := by
  have stops : Stops (after.text ++ []) := Stops.nil.gap after
  have whole := (Cuts.gap before _ 0).append ((f.cuts stops 0).append (Cuts.gap after [] 0))
  obtain ⟨_, fuel, ⟨_, _, rfl, ⟨ts, _, spells, rfl, rfl⟩, rfl⟩, -, same⟩ := whole _ [] le_rfl
  refine ⟨ts, spells, ?_⟩
  rw [List.append_nil] at same
  rw [tokens?, same]
  simp [tokensWithin?]

end Form

end Expression

end Assembly

end StackMachine
