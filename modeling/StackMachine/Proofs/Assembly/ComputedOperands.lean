import StackMachine.Proofs.Assembly.Classification
import StackMachine.Proofs.Assembly.Derivations
import StackMachine.Proofs.Assembly.Expression.Evaluation

/-!
# Operands that are computed

A line may give an operand as an expression. The line is assembled as if the value of the expression
stood there as a decimal, and the operand is the value.

## Main definitions

* `Assembly.Lettered`: the names of equates begin with letters.
* `Assembly.State.Denotes`: a word that stands for an operation with an operand.

## Main results

* `Assembly.assembleLineWith_expression`: a line with an expression comes down to two words.
* `Assembly.operandOf_decimal`: the decimal of a number as an operand.
* `Assembly.assembleLine_computes`: the operand of an integer expression is its value.
-/

namespace StackMachine

namespace Assembly

open State

/-! ### Lines of a mnemonic and an operand -/

theorem cutLast?_concat (g : Glyph) (t : Text) : Text.cutLast? g (t ++ [g]) = some (t, []) := by
  simp [Text.cutLast?]

theorem decimal_inWord (n : Int) :
    (∀ g ∈ Text.ofString (Numeral.decimal n), Core.inWord g = true) ∧
      Text.ofString (Numeral.decimal n) ≠ [] := by
  rw [← Core.Number.text_ofInt]
  obtain ⟨g, rest, text, -⟩ := (Core.Number.ofInt n).exists_text
  exact ⟨(Core.Number.ofInt n).inWord, by rw [text]; nofun⟩

/-- An expression at the end of a line is replaced by the decimal of its value. -/
theorem replaceExpressions_expression [Interpreter] (equates : Dictionary Text)
    {front expression : Text} (plain : .scalar '$' ∉ front) (dollarless : .scalar '$' ∉ expression) :
    replaceExpressions equates
        (front ++ .scalar '$' :: .scalar '(' :: (expression ++ [.scalar ')'])) =
      match Expression.evaluate? (equateValue equates) expression with
      | none => .error (.plain (Text.ofString "$(" ++ expression ++ Text.ofString ")")
          (.badExpression expression))
      | some n => .ok (front ++ Text.ofString (Numeral.decimal n)) := by
  have none {t : Text} (absent : .scalar '$' ∉ t) : ∀ g ∈ t, decide (g = .scalar '$') = false := by
    intro g member
    refine decide_eq_false fun same => absent ?_
    rwa [same] at member
  have behind : .scalar '$' ∉ .scalar '(' :: (expression ++ [.scalar ')']) := by
    simpa using dollarless
  have cut : Text.pieces (· = .scalar '$')
      (front ++ .scalar '$' :: .scalar '(' :: (expression ++ [.scalar ')'])) =
        (front, [.scalar '(' :: (expression ++ [.scalar ')'])]) := by
    rw [Text.pieces_append_of_neg _ (none plain), Text.pieces_cons_of_pos _ (by decide),
      Text.pieces_of_neg (none behind), List.append_nil]
  simp only [replaceExpressions, cut, List.map_cons, List.map_nil, replaceExpression,
    takeExpression?, cutLast?_concat]
  cases Expression.evaluate? (equateValue equates) expression with
  | none => rfl
  | some n => simp [lastFailure?, successes]

section Words

variable [Interpreter] {expand : MacroCall → State → Outcome Unit} {mnemonic operand : Text}
  (word : ∀ g ∈ mnemonic, Core.inWord g = true) (nonempty : mnemonic ≠ [])

include word nonempty

/-- A line of two words without replacements has no label. -/
theorem assembleLineWith_words {lineNo : Nat} {s : State} {line : Text}
    (replaced : replaceExpressions (s.atLine lineNo).equates (replaceCharacters line) =
      .ok (mnemonic ++ ([.scalar ' '] ++ operand)))
    (second : ∀ g ∈ operand, Core.inWord g = true) (nonempty' : operand ≠ []) :
    assembleLineWith expand lineNo line s =
      assembleWords expand lineNo [mnemonic, operand] (s.atLine lineNo) := by
  have unlabelled : takeLabel? (mnemonic ++ ([.scalar ' '] ++ operand)) = none := by
    refine Core.takeLabel?_eq_none word (by decide) ?_ fun g hg => ?_
    · rintro g ⟨⟩
      exact .inl rfl
    · have solid := second g (List.mem_of_head? hg)
      exact ⟨Core.isPlainBlank_of_inWord solid, Core.ne_of_inWord solid (by decide)⟩
  have labels := defineLabels_of_unlabelled (s.atLine lineNo) lineNo unlabelled
  have fields : Text.fields (mnemonic ++ ([.scalar ' '] ++ operand)) = [mnemonic, operand] := by
    have space : ∀ g ∈ [Glyph.scalar ' '], g.isBlank = true := by decide
    have cut := Text.fields_word_gap operand nonempty
      (fun g hg => Core.isBlank_of_inWord (word g hg)) (List.cons_ne_nil _ _) space
    rw [Text.fields_word nonempty' fun g hg => Core.isBlank_of_inWord (second g hg),
      List.append_assoc] at cut
    exact cut
  simp only [assembleLineWith, replaced, labels, fields]

/-- A line of two words comes down to them. -/
theorem assembleLineWith_plain (lineNo : Nat) (s : State)
    (second : ∀ g ∈ operand, Core.inWord g = true) (nonempty' : operand ≠ []) :
    assembleLineWith expand lineNo (mnemonic ++ (Text.ofString " " ++ operand)) s =
      assembleWords expand lineNo [mnemonic, operand] (s.atLine lineNo) := by
  have inside {k : Glyph} (other : Core.inWord k = false) (notSpace : k ≠ .scalar ' ') :
      k ∉ mnemonic ++ (Text.ofString " " ++ operand) := by
    simp only [List.mem_append, not_or]
    refine ⟨Core.not_mem_of_inWord word other, ?_, Core.not_mem_of_inWord second other⟩
    simpa [Text.ofString] using notSpace
  refine assembleLineWith_words word nonempty ?_ second nonempty'
  rw [Core.replaceCharacters_eq_self (inside (by decide) (by decide)),
    Core.replaceExpressions_eq_self _ (inside (by decide) (by decide))]
  rfl

/-- A line with an expression as its operand comes down to the mnemonic and the decimal of the
value. -/
theorem assembleLineWith_expression (lineNo : Nat) (s : State) {expression : Text}
    (quoteless : .scalar '\'' ∉ expression) (dollarless : .scalar '$' ∉ expression) :
    assembleLineWith expand lineNo
        (mnemonic ++ (Text.ofString " $(" ++ (expression ++ Text.ofString ")"))) s =
      match Expression.evaluate? (equateValue (s.atLine lineNo).equates) expression with
      | none =>
        (s.atLine lineNo).refuse (Text.ofString "$(" ++ expression ++ Text.ofString ")")
          (.badExpression expression)
      | some n =>
        assembleWords expand lineNo [mnemonic, Text.ofString (Numeral.decimal n)]
          (s.atLine lineNo) := by
  have quote : .scalar '\'' ∉
      mnemonic ++ (Text.ofString " $(" ++ (expression ++ Text.ofString ")")) := by
    simp [Text.ofString, quoteless, Core.not_mem_of_inWord word (k := .scalar '\'') (by decide)]
  have front : .scalar '$' ∉ mnemonic ++ [.scalar ' '] := by
    simp [Core.not_mem_of_inWord word (k := .scalar '$') (by decide)]
  have line : mnemonic ++ (Text.ofString " $(" ++ (expression ++ Text.ofString ")")) =
      (mnemonic ++ [.scalar ' ']) ++
        .scalar '$' :: .scalar '(' :: (expression ++ [.scalar ')']) := by
    simp [Text.ofString]
  have replaced := replaceExpressions_expression (s.atLine lineNo).equates front dollarless
  rw [← line, ← Core.replaceCharacters_eq_self quote] at replaced
  cases value : Expression.evaluate? (equateValue (s.atLine lineNo).equates) expression with
  | none =>
    rw [value] at replaced
    simp only [assembleLineWith, replaced, State.refuse]
  | some n =>
    rw [value] at replaced
    have words := replaced.trans (congrArg Except.ok (List.append_assoc ..))
    obtain ⟨inWord, solid⟩ := decimal_inWord n
    exact assembleLineWith_words word nonempty words inWord solid

end Words

/-! ### Words and what they stand for -/

/-- The names of equates begin with a letter or an underscore. -/
def Lettered (equates : Dictionary Text) : Prop :=
  ∀ name, equates.contains name = true → ∃ g ∈ name.head?, Expression.startsName g = true

theorem lettered_of_entries {equates : Dictionary Text}
    (all : ∀ entry ∈ equates.entries, ∃ g ∈ entry.1.head?, Expression.startsName g = true) :
    Lettered equates := by
  intro name defined
  obtain ⟨value, found⟩ := Option.isSome_iff_exists.mp defined
  exact all _ (Dictionary.mem_of_findIn? found)

namespace State

/-- What a word stands for: the equate of this name, or itself. -/
def meaning (s : State) (word : Text) : Text :=
  (s.equates.find? word).getD word

/-- A word stands for an operation with an operand, and not for a macro. -/
structure Denotes (s : State) (word : Text) (op : Opcode) : Prop where
  mnemonic : Opcode.ofMnemonic? (s.meaning word) = some op
  carries : op.takesOperand = true
  free : s.macros.find? (s.meaning word) = none

theorem atLine_lettered {s : State} (lettered : Lettered s.equates) (lineNo : Nat) :
    Lettered (s.atLine lineNo).equates := by
  intro name defined
  by_cases line : name = lineName
  · subst line
    exact ⟨.scalar 'L', rfl, by decide⟩
  · refine lettered name ?_
    rwa [Dictionary.contains, atLine, Dictionary.find?_set_of_ne _ _ (Ne.symm line)] at defined

/-- No equate has the name of a decimal. -/
theorem meaning_decimal {s : State} (lettered : Lettered s.equates) (n : Int) :
    s.meaning (Text.ofString (Numeral.decimal n)) = Text.ofString (Numeral.decimal n) := by
  have unnamed : s.equates.find? (Text.ofString (Numeral.decimal n)) = none := by
    by_contra defined
    obtain ⟨g, first, starts⟩ := lettered _ (Option.ne_none_iff_isSome.mp defined)
    rw [← Core.Number.text_ofInt, Core.Number.ofInt, Core.Number.text] at first
    split at first
    · cases first
      cases starts
    · obtain ⟨d, rest, digits⟩ := (Core.Digits.ofNat n.natAbs).exists_text
      rw [Core.Sign.text, List.nil_append, digits] at first
      cases first
      cases (Core.isDigit_char d).symm.trans (Expression.isDigit_of_startsName starts)
  rw [meaning, unnamed, Option.getD_none]

end State

theorem assembleWords_pair {expand : MacroCall → State → Outcome Unit} {s : State} {word : Text}
    (directive : word ≠ Text.ofString ".equ") (free : s.macros.find? (s.meaning word) = none)
    (lineNo : Nat) (operand : Text) :
    assembleWords expand lineNo [word, operand] s =
      s.emit lineNo [s.meaning word, s.meaning operand] := by
  have plain : [word, operand].head? ≠ some (Text.ofString ".equ") := by simpa using directive
  rw [assembleWords, if_neg plain]
  simp only [replaceEquates, List.map_cons, List.map_nil]
  rw [meaning] at free
  rw [free]
  rfl

/-- The decimal of a number of 64 bits is an operand exactly if the number has 24 bits. -/
theorem operandOf_decimal (equates : Dictionary Text) {n : Int} (lower : -2 ^ 63 ≤ n)
    (upper : n < 2 ^ 63) :
    (-2 ^ 23 ≤ n ∧ n ≤ 2 ^ 23 - 1 →
      operandOf equates (Text.ofString (Numeral.decimal n)) = .ok (.value n)) ∧
    (¬ (-2 ^ 23 ≤ n ∧ n ≤ 2 ^ 23 - 1) →
      operandOf equates (Text.ofString (Numeral.decimal n)) = .error (.operandRange n)) := by
  let c : Core.Constant := ⟨false, .ofInt n⟩
  have text : c.text = Text.ofString (Numeral.decimal n) := Core.Number.text_ofInt n
  have value : c.value = n := Core.Number.value_ofInt n
  have readable : c.number.Readable := by
    have same := Core.Number.value_ofInt n
    simp only [Core.Number.ofInt, Core.Number.value] at same
    simp only [c, Core.Number.ofInt, Core.Number.Readable, same]
    exact ⟨lower, upper⟩
  have inRange : c.InRange ↔ -2 ^ 23 ≤ n ∧ n ≤ 2 ^ 23 - 1 := by
    rw [Core.Constant.InRange, value]
    rfl
  obtain ⟨taken, refused⟩ := Core.Constant.plainOperand_text readable
  rw [inRange, value] at taken refused
  rw [← text, c.operandOf_text]
  refine ⟨fun inside => ?_, refused⟩
  have small : Instr.signExtend n = n :=
    Core.signExtend_eq_iff.mpr ⟨inside.1, inside.2, Int.ModEq.refl _⟩
  rw [taken inside, small]

/-! ### Lines whose operand is computed -/

/-- The glyphs of an expression. -/
theorem Expression.Form.mem_text {closed : Bool} (f : Expression.Form closed) {g : Glyph}
    (member : g ∈ f.text) :
    Expression.continuesName g = true ∨ g ∈ ("()+-*/% \t" : Text) := by
  have gap (between : Core.Gap) : g ∈ between.text → g ∈ ("()+-*/% \t" : Text) := by
    intro member
    rcases between.blank g member with rfl | rfl <;> decide
  have operation (op : Expression.IntegerOp) : g ∈ op.text → g ∈ ("()+-*/% \t" : Text) := by
    have all : ∀ k ∈ op.text, k ∈ ("()+-*/% \t" : Text) := by
      cases op <;> decide
    exact all g
  induction f with
  | number n =>
    have digits : g ∈ (Core.Digits.ofNat n).text := by
      rwa [text, ← Core.Number.text_ofInt] at member
    exact .inl (Bool.or_eq_true_iff.mpr (.inl (Expression.isDigit_of_mem_text _ digits)))
  | name n => exact .inl (n.continuesName g member)
  | parens before x after ih =>
    simp only [text, List.mem_cons, List.mem_append, List.not_mem_nil, or_false] at member
    rcases member with rfl | blank | inside | blank | rfl
    · exact .inr (by decide)
    · exact .inr (gap before blank)
    · exact ih inside
    · exact .inr (gap after blank)
    · exact .inr (by decide)
  | negate between x ih =>
    simp only [text, List.mem_cons, List.mem_append] at member
    rcases member with rfl | blank | inside
    · exact .inr (by decide)
    · exact .inr (gap between blank)
    · exact ih inside
  | binary op x before after y ihx ihy =>
    simp only [text, List.mem_append] at member
    rcases member with left | blank | sign | blank | right
    · exact ihx left
    · exact .inr (gap before blank)
    · exact .inr (operation op sign)
    · exact .inr (gap after blank)
    · exact ihy right

/-- The glyphs with a meaning of their own for a line do not stand in an expression. -/
theorem Expression.Form.not_mem_text {k : Glyph} (other : k ∈ ("'$" : Text)) (before : Core.Gap)
    {closed : Bool} (f : Expression.Form closed) (after : Core.Gap) :
    k ∉ before.text ++ (f.text ++ after.text) := by
  have all : ∀ k ∈ ("'$" : Text), Expression.continuesName k = false ∧
      k ∉ ("()+-*/% \t" : Text) := by
    decide
  obtain ⟨name, sign⟩ := all k other
  have gap (between : Core.Gap) : k ∉ between.text := by
    intro member
    rcases between.blank k member with rfl | rfl <;> exact sign (by decide)
  simp only [List.mem_append, gap, false_or, or_false]
  intro member
  rcases f.mem_text member with continues | member
  · cases name.symm.trans continues
  · exact sign member

namespace State

/-- Where no equate and no macro has the name of an operation with an operand, the name stands for
it. -/
theorem denotes_push {s : State} (equate : s.equates.find? "PUSH" = none)
    (macroless : s.macros.find? "PUSH" = none) : s.Denotes "PUSH" .push := by
  have itself : s.meaning "PUSH" = "PUSH" := by rw [meaning, equate, Option.getD_none]
  refine ⟨?_, rfl, ?_⟩
  · rw [itself]
    decide
  · rwa [itself]

theorem Denotes.emit {s : State} {word : Text} {op : Opcode} (denotes : s.Denotes word op)
    (lineNo : Nat) (operand : Text) :
    s.emit lineNo [s.meaning word, operand] =
      match operandOf s.equates operand with
      | .error cause => s.refuse operand cause
      | .ok o =>
        (s.append (s.statement lineNo [s.meaning word, operand] op (some o)), .ok ()) := by
  cases reads : operandOf s.equates operand with
  | error cause => simp only [State.emit, denotes.mnemonic, denotes.carries, if_true, reads]
  | ok o => simp only [State.emit, denotes.mnemonic, denotes.carries, if_true, reads]

end State

section Lines

variable [Interpreter] {mnemonic operand expression : Text}
  (word : ∀ g ∈ mnemonic, Core.inWord g = true) (nonempty : mnemonic ≠ [])
  (directive : mnemonic ≠ Text.ofString ".equ") (depth lineNo : Nat) (active : List Text)
  {s : State}
  (free : (s.atLine lineNo).macros.find? ((s.atLine lineNo).meaning mnemonic) = none)

include word nonempty directive free

/-- A line of a mnemonic and an operand is an instruction of what they stand for. -/
theorem assembleLine_plain (second : ∀ g ∈ operand, Core.inWord g = true)
    (nonempty' : operand ≠ []) :
    assembleLine depth active lineNo (mnemonic ++ (Text.ofString " " ++ operand)) s =
      (s.atLine lineNo).emit lineNo
        [(s.atLine lineNo).meaning mnemonic, (s.atLine lineNo).meaning operand] := by
  obtain ⟨inside, level, -⟩ := exists_assembleLine_eq depth active
  rw [level, assembleLineWith_plain word nonempty lineNo s second nonempty',
    assembleWords_pair directive free]

/-- A line of a mnemonic and an expression is an instruction with the decimal of the value, and is
refused if the expression has no value. -/
theorem assembleLine_expression (lettered : Lettered s.equates)
    (quoteless : .scalar '\'' ∉ expression) (dollarless : .scalar '$' ∉ expression) :
    assembleLine depth active lineNo
        (mnemonic ++ (Text.ofString " $(" ++ (expression ++ Text.ofString ")"))) s =
      match Expression.evaluate? (equateValue (s.atLine lineNo).equates) expression with
      | none =>
        (s.atLine lineNo).refuse (Text.ofString "$(" ++ expression ++ Text.ofString ")")
          (.badExpression expression)
      | some n =>
        (s.atLine lineNo).emit lineNo
          [(s.atLine lineNo).meaning mnemonic, Text.ofString (Numeral.decimal n)] := by
  obtain ⟨inside, level, -⟩ := exists_assembleLine_eq depth active
  rw [level, assembleLineWith_expression word nonempty lineNo s quoteless dollarless]
  cases Expression.evaluate? (equateValue (s.atLine lineNo).equates) expression with
  | none => rfl
  | some n =>
    simp only
    rw [assembleWords_pair directive free, meaning_decimal (atLine_lettered lettered lineNo)]

end Lines

/-- The line that pushes the value of an expression. -/
def computedPush (expression : Text) : Text :=
  "PUSH $(" ++ expression ++ ")"

theorem computedPush_eq (expression : Text) : computedPush expression =
    Text.ofString "PUSH" ++ (Text.ofString " $(" ++ (expression ++ Text.ofString ")")) := by
  simp [computedPush, Text.ofString]

/-- **What an expression computes.** The interpreter may be any that computes with integers. Where
`PUSH` stands for an operation with an operand, a line that pushes an integer expression is accepted
exactly if no divisor is zero and the value over all integers has 24 bits with its sign, and the
value is the operand. If a divisor is zero or the value has more than 64 bits, the expression is
refused, and otherwise the value is told to be out of range. The numbers on the way to the value
have any size. -/
theorem assembleLine_computes [Interpreter] (computes : Expression.Computes) (depth : Nat)
    (active : List Text) (lineNo : Nat) (s : State) (before : Core.Gap) {closed : Bool}
    (f : Expression.Form closed) (after : Core.Gap) (env : Text → Int)
    (known : ∀ n ∈ f.names, equateValue (s.atLine lineNo).equates n.text = some (env n.text))
    (lettered : Lettered s.equates) {op : Opcode} (denotes : (s.atLine lineNo).Denotes "PUSH" op) :
    let expression := before.text ++ (f.text ++ after.text)
    let outcome := assembleLine depth active lineNo (computedPush expression) s
    (outcome.2 = .ok () ↔
      f.NoZeroDivisor env ∧ -2 ^ 23 ≤ f.value env ∧ f.value env ≤ 2 ^ 23 - 1) ∧
    (outcome.2 = .ok () →
      ∃ statement, outcome.1 = (s.atLine lineNo).append statement ∧
        statement.instr.tag = op.tag ∧ statement.instr.operand.toInt = f.value env ∧
        statement.link = none) ∧
    (¬ (f.NoZeroDivisor env ∧ -2 ^ 63 ≤ f.value env ∧ f.value env < 2 ^ 63) →
      outcome = (s.atLine lineNo).refuse ("$(" ++ expression ++ ")") (.badExpression expression)) ∧
    (f.NoZeroDivisor env → -2 ^ 63 ≤ f.value env ∧ f.value env < 2 ^ 63 →
      ¬ (-2 ^ 23 ≤ f.value env ∧ f.value env ≤ 2 ^ 23 - 1) →
      outcome = (s.atLine lineNo).refuse (Numeral.decimal (f.value env))
        (.operandRange (f.value env))) := by
  intro expression outcome
  have line : outcome =
      match Expression.evaluate? (equateValue (s.atLine lineNo).equates) expression with
      | none => (s.atLine lineNo).refuse ("$(" ++ expression ++ ")") (.badExpression expression)
      | some n =>
        (s.atLine lineNo).emit lineNo
          [(s.atLine lineNo).meaning "PUSH", Text.ofString (Numeral.decimal n)] := by
    rw [← assembleLine_expression (by decide) (by decide) (by decide) depth lineNo active
      denotes.free lettered (f.not_mem_text (by decide) before after)
      (f.not_mem_text (by decide) before after), ← computedPush_eq]
  rw [computes.evaluate?_text before f after env known] at line
  simp only [denotes.emit] at line
  have failed (unvalued : ¬ (f.NoZeroDivisor env ∧ -2 ^ 63 ≤ f.value env ∧ f.value env < 2 ^ 63)) :
      outcome =
        (s.atLine lineNo).refuse ("$(" ++ expression ++ ")") (.badExpression expression) := by
    rwa [if_neg unvalued] at line
  have outside (defined : f.NoZeroDivisor env)
      (bounds : -2 ^ 63 ≤ f.value env ∧ f.value env < 2 ^ 63)
      (large : ¬ (-2 ^ 23 ≤ f.value env ∧ f.value env ≤ 2 ^ 23 - 1)) :
      outcome = (s.atLine lineNo).refuse (Numeral.decimal (f.value env))
        (.operandRange (f.value env)) := by
    simpa only [if_pos (And.intro defined bounds),
      (operandOf_decimal (s.atLine lineNo).equates bounds.1 bounds.2).2 large] using line
  have taken (defined : f.NoZeroDivisor env)
      (small : -2 ^ 23 ≤ f.value env ∧ f.value env ≤ 2 ^ 23 - 1) :
      ∃ words, outcome = ((s.atLine lineNo).append ((s.atLine lineNo).statement lineNo words op
        (some (.value (f.value env)))), .ok ()) := by
    have bounds : -2 ^ 63 ≤ f.value env ∧ f.value env < 2 ^ 63 := by omega
    simp only [if_pos (And.intro defined bounds),
      (operandOf_decimal (s.atLine lineNo).equates bounds.1 bounds.2).1 small] at line
    exact ⟨_, line⟩
  have accepted : outcome.2 = .ok () →
      f.NoZeroDivisor env ∧ -2 ^ 23 ≤ f.value env ∧ f.value env ≤ 2 ^ 23 - 1 := by
    intro accepted
    by_cases valued : f.NoZeroDivisor env ∧ -2 ^ 63 ≤ f.value env ∧ f.value env < 2 ^ 63
    · refine ⟨valued.1, ?_⟩
      by_contra large
      rw [outside valued.1 valued.2 large] at accepted
      cases accepted
    · rw [failed valued] at accepted
      cases accepted
  refine ⟨⟨accepted, ?_⟩, fun ok => ?_, failed, outside⟩
  · rintro ⟨defined, small⟩
    obtain ⟨words, line⟩ := taken defined small
    rw [line]
  · obtain ⟨defined, small⟩ := accepted ok
    obtain ⟨words, line⟩ := taken defined small
    exact ⟨_, congrArg Prod.fst line, rfl, Int32.toInt_ofInt_of_le (by omega) (by omega), rfl⟩

/-- Tables with some equates that are integers. -/
def scaleTables : State where
  equates := Dictionary.ofList [("LINENO", "0"), ("WIDTH", "0x10"), ("DEPTH", "-7"), ("ZERO", "0")]

/-- The values of these equates. -/
def scaleValues (name : Text) : Int :=
  if name = "WIDTH" then 16 else if name = "DEPTH" then -7 else 0

/-- A divisor that is not zero. -/
def depthName : Expression.Name :=
  ⟨"DEPTH", by decide, by decide, by decide⟩

/-- A divisor that is zero. -/
def zeroName : Expression.Name :=
  ⟨"ZERO", by decide, by decide, by decide⟩

/-- The remainder of a product that has more than 64 bits. -/
def scaled (divisor : Expression.Name) : Expression.Form false :=
  .binary .remainder
    (.parens ⟨[], nofun⟩
      (.binary .times (.number 10000000000000000000) ⟨[], nofun⟩ ⟨[.scalar ' '], by simp⟩
        (.name ⟨"WIDTH", by decide, by decide, by decide⟩))
      ⟨[], nofun⟩)
    ⟨[.scalar ' '], by simp⟩ ⟨[], nofun⟩ (.name divisor)

attribute [local instance] Expression.interpreter

/-- The remainder takes the sign of the divisor, and there is none for the divisor zero. -/
theorem assembleLine_computes_scaled :
    (assembleLine 0 [] 1 (computedPush "(10000000000000000000* WIDTH) %DEPTH") scaleTables).2 =
      .ok () ∧
    (∃ statement,
      (assembleLine 0 [] 1 (computedPush "(10000000000000000000* WIDTH) %DEPTH") scaleTables).1 =
        (scaleTables.atLine 1).append statement ∧
      statement.instr.tag = Opcode.push.tag ∧ statement.instr.operand.toInt = -1 ∧
      statement.link = none) ∧
    assembleLine 0 [] 1 (computedPush "(10000000000000000000* WIDTH) %ZERO") scaleTables =
      (scaleTables.atLine 1).refuse "$((10000000000000000000* WIDTH) %ZERO)"
        (.badExpression "(10000000000000000000* WIDTH) %ZERO") := by
  have lettered : Lettered scaleTables.equates := lettered_of_entries (by decide)
  have denotes : (scaleTables.atLine 1).Denotes "PUSH" .push :=
    State.denotes_push (by decide) (by decide)
  have known (divisor : Expression.Name) (named : divisor = depthName ∨ divisor = zeroName) :
      ∀ n ∈ (scaled divisor).names,
        equateValue (scaleTables.atLine 1).equates n.text = some (scaleValues n.text) := by
    rcases named with rfl | rfl <;> decide +kernel
  have value : (scaled depthName).value scaleValues = -1 := by
    have product : (10000000000000000000 : Int) * scaleValues (Text.ofString "WIDTH") =
        160000000000000000000 := by
      decide
    have divisor : scaleValues depthName.text = -7 := by decide
    simp only [scaled, Expression.Form.value, Expression.IntegerOp.apply, Nat.cast_ofNat, product,
      divisor]
    rw [← Expression.fdiv_eq_floor _ (by decide)]
    decide
  have defined : (scaled depthName).NoZeroDivisor scaleValues := by decide +kernel
  have undefined : ¬ (scaled zeroName).NoZeroDivisor scaleValues := by decide +kernel
  obtain ⟨taken, operand, -⟩ := assembleLine_computes Expression.interpreter_computes 0 [] 1
    scaleTables ⟨[], nofun⟩ (scaled depthName) ⟨[], nofun⟩ scaleValues (known _ (.inl rfl)) lettered
    denotes
  obtain ⟨-, -, refused, -⟩ := assembleLine_computes Expression.interpreter_computes 0 [] 1
    scaleTables ⟨[], nofun⟩ (scaled zeroName) ⟨[], nofun⟩ scaleValues (known _ (.inr rfl)) lettered
    denotes
  have accepted := taken.mpr ⟨defined, by rw [value]; decide, by rw [value]; decide⟩
  have spelled : [] ++ ((scaled depthName).text ++ []) =
      Text.ofString "(10000000000000000000* WIDTH) %DEPTH" := by
    decide +kernel
  have spelled' : [] ++ ((scaled zeroName).text ++ []) =
      Text.ofString "(10000000000000000000* WIDTH) %ZERO" := by
    decide +kernel
  rw [value] at operand
  rw [spelled] at accepted operand
  rw [spelled'] at refused
  exact ⟨accepted, operand accepted, refused fun h => undefined h.1⟩

/-- Tables in which the name of an operation is an equate. -/
def renamedTables : State where
  equates := Dictionary.ofList [("LINENO", "0"), ("PUSH", "POP")]

/-- That the names of the equates can be mentioned is not enough: with an equate of the name of the
operation the line is another one. -/
theorem not_assembleLine_computes_renamed :
    ¬ ∀ [Interpreter], Expression.Computes → ∀ (depth : Nat) (active : List Text) (lineNo : Nat)
        (s : State) (f : Expression.Form true) (env : Text → Int),
        (∀ name, s.equates.contains name = true → Expression.isName name = true) →
        (∀ n ∈ f.names, equateValue (s.atLine lineNo).equates n.text = some (env n.text)) →
        ((assembleLine depth active lineNo (computedPush f.text) s).2 = .ok () ↔
          f.NoZeroDivisor env ∧ -2 ^ 23 ≤ f.value env ∧ f.value env ≤ 2 ^ 23 - 1) := by
  intro claimed
  have names : ∀ name, renamedTables.equates.contains name = true →
      Expression.isName name = true := by
    intro name defined
    obtain ⟨value, found⟩ := Option.isSome_iff_exists.mp defined
    have all : ∀ entry ∈ renamedTables.equates.entries, Expression.isName entry.1 = true := by
      decide
    exact all _ (Dictionary.mem_of_findIn? found)
  have refused : (assembleLine 0 [] 2 (computedPush "1") renamedTables).2 =
      .error (.plain "1" .extraArguments) := by
    decide +kernel
  have accepted := (claimed Expression.interpreter_computes 0 [] 2 renamedTables (.number 1)
    (fun _ => 0) names nofun).mpr ⟨trivial, by decide, by decide⟩
  cases refused.symm.trans accepted

end Assembly

end StackMachine
