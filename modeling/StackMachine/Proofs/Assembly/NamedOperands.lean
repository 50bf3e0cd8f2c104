import StackMachine.Proofs.Assembly.ComputedOperands
import StackMachine.Session

/-!
# Operands that are named

The value of an equate becomes an operand in two ways: a line names the equate, or it evaluates an
expression that is the name. The name is replaced by the text of the equate, and the expression by
the decimal of its value. The two make the same operand, except where the text is a bit pattern that
uses the bit of the sign: a pattern may, and a decimal may not.

## Main definitions

* `Assembly.SignedPattern`: the bit patterns that use the bit of the sign.
* `Assembly.State.SameOperand`: two outcomes of a line that have the same instruction, or none.

## Main results

* `Assembly.operandOf_decimal_value`: a constant and the decimal of its value as operands.
* `Assembly.assembleLine_named`: naming an equate and evaluating its name.
-/

namespace StackMachine

namespace Assembly

open State

/-! ### Names as words -/

/-- The numbers of the characters that end a word. -/
def enders : List Nat :=
  List.range' 0x09 5 ++ List.range' 0x2000 11 ++
    [0x20, 0x85, 0xA0, 0x1680, 0x2028, 0x2029, 0x202F, 0x205F, 0x3000, 0x24, 0x27, 0x3A, 0x3B]

theorem mem_enders {c : Char} (outside : Core.inWord (.scalar c) = false) : c.toNat ∈ enders := by
  simp only [Core.inWord, Bool.and_eq_false_iff, Bool.not_eq_false', decide_eq_false_iff_not,
    not_not] at outside
  rcases outside with (((blank | rfl) | rfl) | rfl) | rfl
  · simp only [Glyph.isBlank, Bool.or_eq_true, Bool.and_eq_true, decide_eq_true_eq,
      beq_iff_eq] at blank
    simp only [enders, List.mem_append, List.mem_range'_1, List.mem_cons, List.not_mem_nil]
    omega
  all_goals decide

/-- What ends a word is no part of a name. -/
theorem Expression.inWord_of_continuesName {g : Glyph} (continues : continuesName g = true) :
    Core.inWord g = true := by
  have table : ∀ n ∈ enders, continuesName (.scalar (Char.ofNat n)) = false := by
    decide +kernel
  cases g with
  | stray b => cases continues
  | scalar c =>
    by_contra outside
    have none := table _ (mem_enders (Bool.not_eq_true _ ▸ outside))
    rw [Char.ofNat_toNat] at none
    cases continues.symm.trans none

theorem Expression.Name.inWord (n : Expression.Name) : ∀ g ∈ n.text, Core.inWord g = true :=
  fun g member => inWord_of_continuesName (n.continuesName g member)

/-! ### Constants and their decimals -/

/-- A bit pattern that uses the bit of the sign and no other bit beyond the operand. -/
def SignedPattern (text : Text) : Prop :=
  ∃ c : Core.Constant, c.text = text ∧ c.number.isPattern = true ∧
    2 ^ 23 ≤ c.value ∧ c.value ≤ 2 ^ 24 - 1

/-- A constant and the decimal of its value are the same operand, or the same value out of range,
unless the constant is a bit pattern that uses the bit of the sign. -/
theorem operandOf_decimal_value (equates : Dictionary Text) {c : Core.Constant}
    (readable : c.number.Readable) (unsigned : ¬ SignedPattern c.text) :
    operandOf equates c.text = operandOf equates (Text.ofString (Numeral.decimal c.value)) := by
  obtain ⟨lower, upper⟩ := Core.Constant.value_bounds readable
  obtain ⟨taken, refused⟩ := operandOf_decimal equates lower upper
  obtain ⟨taken', refused'⟩ := Core.Constant.plainOperand_text readable
  have ceiling : c.InRange ↔ -2 ^ 23 ≤ c.value ∧ c.value ≤ 2 ^ 23 - 1 := by
    have band (pattern : c.number.isPattern = true) :
        ¬ (2 ^ 23 ≤ c.value ∧ c.value ≤ 2 ^ 24 - 1) :=
      fun bounds => unsigned ⟨c, rfl, pattern, bounds⟩
    rw [Core.Constant.InRange, Core.Constant.ceiling]
    split_ifs with pattern
    · have := band pattern
      omega
    · rfl
  rw [c.operandOf_text]
  by_cases inRange : c.InRange
  · have small := ceiling.mp inRange
    have same : Instr.signExtend c.value = c.value :=
      Core.signExtend_eq_iff.mpr ⟨small.1, small.2, Int.ModEq.refl _⟩
    rw [taken' inRange, taken small, same]
  · rw [refused' inRange, refused (fun small => inRange (ceiling.mpr small))]

namespace SignedPattern

variable {text : Text} (signed : SignedPattern text) {v : Int} (value : valueOf text = .ok v)

include signed value

theorem bounds : 2 ^ 23 ≤ v ∧ v ≤ 2 ^ 24 - 1 := by
  obtain ⟨c, rfl, -, bounds⟩ := signed
  obtain ⟨d, text, readable, rfl⟩ := Core.valueOf_eq_ok_iff.mp value
  rwa [(Core.Constant.same_of_text text.symm readable).2.1] at bounds

/-- A bit pattern that uses the bit of the sign is a negative operand, and the decimal of its value
is out of range. -/
theorem operandOf (equates : Dictionary Text) :
    operandOf equates text = .ok (.value (v - 2 ^ 24)) ∧
      operandOf equates (Text.ofString (Numeral.decimal v)) = .error (.operandRange v) := by
  obtain ⟨lower, upper⟩ := signed.bounds value
  obtain ⟨c, rfl, pattern, small⟩ := signed
  have inRange : c.InRange := by
    rw [Core.Constant.InRange, Core.Constant.ceiling, if_pos pattern]
    omega
  have own := Core.valueOf_eq_ok_iff.mpr ⟨c, rfl, inRange.readable, rfl⟩
  cases own.symm.trans value
  have wrapped : Instr.signExtend c.value = c.value - 2 ^ 24 := by
    rw [Core.signExtend_eq_iff, Int.ModEq]
    omega
  rw [c.operandOf_text, (Core.Constant.plainOperand_text inRange.readable).1 inRange, wrapped]
  exact ⟨rfl, (operandOf_decimal equates (by omega) (by omega)).2 (by omega)⟩

end SignedPattern

namespace State

/-- Two outcomes of a line after the same tables: both add an instruction, and it is the same one,
or both are refused. -/
def SameOperand (s : State) (o p : Outcome Unit) : Prop :=
  (∃ a b, o = (s.append a, .ok ()) ∧ p = (s.append b, .ok ()) ∧
    a.instr = b.instr ∧ a.link = b.link) ∨ (o.2 ≠ .ok () ∧ p.2 ≠ .ok ())

/-- If one of two outcomes is refused and the other is not, they are not the same. -/
theorem not_sameOperand {s : State} {o p : Outcome Unit}
    (apart : ¬ (o.2 = .ok () ↔ p.2 = .ok ())) : ¬ s.SameOperand o p := by
  rintro (⟨a, b, rfl, rfl, -⟩ | ⟨first, second⟩)
  · exact apart ⟨fun _ => rfl, fun _ => rfl⟩
  · exact apart ⟨fun h => absurd h first, fun h => absurd h second⟩

theorem refuse_ne_ok (s : State) (token : Text) (cause : Cause) :
    (s.refuse token cause : Outcome Unit).2 ≠ .ok () := by
  rintro ⟨⟩

/-- Words that are the same operand make the same instruction of a mnemonic; without an operation
that has an operand, any words do. -/
theorem sameOperand_emit (s : State) {mnemonic u w : Text}
    (same : ∀ op, Opcode.ofMnemonic? mnemonic = some op → op.takesOperand = true →
      operandOf s.equates u = operandOf s.equates w) (lineNo : Nat) :
    s.SameOperand (s.emit lineNo [mnemonic, u]) (s.emit lineNo [mnemonic, w]) := by
  simp only [emit]
  cases operation : Opcode.ofMnemonic? mnemonic with
  | none => exact .inr ⟨refuse_ne_ok _ _ _, refuse_ne_ok _ _ _⟩
  | some op =>
    simp only
    split
    · rename_i carries
      rw [same op operation carries]
      cases operandOf s.equates w with
      | error cause => exact .inr ⟨refuse_ne_ok _ _ _, refuse_ne_ok _ _ _⟩
      | ok o => cases o <;> exact .inl ⟨_, _, rfl, rfl, rfl, rfl⟩
    · exact .inr ⟨refuse_ne_ok _ _ _, refuse_ne_ok _ _ _⟩

end State

/-! ### Naming and evaluating -/

/-- The line that pushes an operand. -/
def namedPush (operand : Text) : Text :=
  "PUSH " ++ operand

theorem namedPush_eq (operand : Text) :
    namedPush operand = Text.ofString "PUSH" ++ (Text.ofString " " ++ operand) := by
  simp [namedPush, Text.ofString]

/-- **Naming an equate and evaluating its name.** The interpreter may be any that reads names. Where
`PUSH` stands for no macro, a line that pushes an equate by its name and a line that pushes the
expression that is its name have the same instruction, or both are refused. The one exception are
bit patterns that use the bit of the sign: the name makes a negative operand of such a pattern, and
the value of the expression is out of range. -/
theorem assembleLine_named [Interpreter] (reads : Expression.ReadsNames) (depth : Nat)
    (active : List Text) (lineNo : Nat) (s : State) (n : Expression.Name) {text : Text} {v : Int}
    (named : (s.atLine lineNo).equates.find? n.text = some text) (value : valueOf text = .ok v)
    (lettered : Lettered s.equates)
    (free : (s.atLine lineNo).macros.find? ((s.atLine lineNo).meaning "PUSH") = none) :
    let now := s.atLine lineNo
    let byName := assembleLine depth active lineNo (namedPush n.text) s
    let byValue := assembleLine depth active lineNo (computedPush n.text) s
    (¬ (SignedPattern text ∧ ∃ op, now.Denotes "PUSH" op) → now.SameOperand byName byValue) ∧
    (SignedPattern text → ∀ op, now.Denotes "PUSH" op →
      (∃ statement, byName = (now.append statement, .ok ()) ∧ statement.instr.tag = op.tag ∧
        statement.instr.operand.toInt = v - 2 ^ 24 ∧ statement.link = none) ∧
      byValue = now.refuse (Numeral.decimal v) (.operandRange v)) := by
  intro now byName byValue
  obtain ⟨c, rfl, readable, rfl⟩ := Core.valueOf_eq_ok_iff.mp value
  obtain ⟨lower, upper⟩ := Core.Constant.value_bounds readable
  have known : equateValue now.equates n.text = some c.value := by
    rw [equateValue, named, Option.map_some, value]
  have first : byName = now.emit lineNo [now.meaning "PUSH", c.text] := by
    have line := assembleLine_plain (by decide) (by decide) (by decide) depth lineNo active free
      n.inWord n.ne_nil
    have meant : (s.atLine lineNo).meaning n.text = c.text := by
      rw [meaning, named, Option.getD_some]
    rwa [← namedPush_eq, meant] at line
  have second : byValue =
      now.emit lineNo [now.meaning "PUSH", Text.ofString (Numeral.decimal c.value)] := by
    have line := assembleLine_expression (by decide) (by decide) (by decide) depth lineNo active
      free lettered (Core.not_mem_of_inWord n.inWord (by decide))
      (Core.not_mem_of_inWord n.inWord (by decide))
    rwa [← computedPush_eq, reads.evaluate?_name n known lower upper] at line
  rw [first, second]
  refine ⟨fun apart => now.sameOperand_emit (fun op mnemonic carries => ?_) lineNo,
    fun signed op denotes => ?_⟩
  · exact operandOf_decimal_value _ readable
      fun signed => apart ⟨signed, op, mnemonic, carries, free⟩
  · obtain ⟨taken, refused⟩ := signed.operandOf value now.equates
    obtain ⟨least, most⟩ := signed.bounds value
    have exact : (Int32.ofInt (c.value - 2 ^ 24)).toInt = c.value - 2 ^ 24 :=
      Int32.toInt_ofInt_of_le (by omega) (by omega)
    rw [denotes.emit, denotes.emit, taken, refused]
    exact ⟨⟨_, rfl, rfl, exact, rfl⟩, rfl⟩

/-- The tables of a session, before the first line. -/
def sessionTables : State :=
  (Assembler.reader { predefines := Session.equates {} }).state

attribute [local instance] Expression.interpreter

/-- The equates of the least operand and of the greatest bit pattern: the first is one operand in
both ways, and the second is an operand only if it is named. -/
theorem assembleLine_named_session :
    (sessionTables.atLine 1).SameOperand
      (assembleLine 0 [] 1 (namedPush "OPERAND_MIN") sessionTables)
      (assembleLine 0 [] 1 (computedPush "OPERAND_MIN") sessionTables) ∧
    (∃ statement, assembleLine 0 [] 1 (namedPush "OPERAND_MAX") sessionTables =
        ((sessionTables.atLine 1).append statement, .ok ()) ∧
      statement.instr.tag = Opcode.push.tag ∧ statement.instr.operand.toInt = -1 ∧
      statement.link = none) ∧
    assembleLine 0 [] 1 (computedPush "OPERAND_MAX") sessionTables =
      (sessionTables.atLine 1).refuse "16777215" (.operandRange 16777215) := by
  have lettered : Lettered sessionTables.equates := lettered_of_entries (by decide +kernel)
  have free : (sessionTables.atLine 1).macros.find? ((sessionTables.atLine 1).meaning "PUSH") =
      none := by
    decide +kernel
  have denotes : (sessionTables.atLine 1).Denotes "PUSH" .push :=
    denotes_push (by decide +kernel) (by decide +kernel)
  have low : valueOf "-8388608" = .ok (-8388608) := by decide +kernel
  have high : valueOf "0xffffff" = .ok 16777215 := by decide +kernel
  obtain ⟨same, -⟩ := assembleLine_named Expression.interpreter_computes.name 0 [] 1 sessionTables
    ⟨"OPERAND_MIN", by decide +kernel, by decide +kernel, by decide⟩ (by decide +kernel) low
    lettered free
  obtain ⟨-, apart⟩ := assembleLine_named Expression.interpreter_computes.name 0 [] 1 sessionTables
    ⟨"OPERAND_MAX", by decide +kernel, by decide +kernel, by decide⟩ (by decide +kernel) high
    lettered free
  have signed : SignedPattern "0xffffff" :=
    ⟨⟨false, .hexadecimal false ⟨List.replicate 6 ⟨15, false⟩, by simp⟩⟩,
      by decide, rfl, by decide, by decide⟩
  refine ⟨same fun signed => ?_, apart signed .push denotes⟩
  have bounds := signed.1.bounds low
  omega

/-- Tables in which the mnemonic is a macro: one that makes its argument a line, which is a macro as
well if it is written as a decimal. -/
def macroTables : State where
  equates := Dictionary.ofList [("LINENO", "0"), ("FIVE", "0x5")]
  macros := Dictionary.ofList [("5", ⟨3, [], ["NOP"]⟩), ("PUSH", ⟨6, ["X"], ["X"]⟩)]

/-- Tables in which a word that is reserved in expressions is an equate. -/
def reservedTables : State where
  equates := Dictionary.ofList [("LINENO", "0"), ("import", "5")]

/-- Naming and evaluating are not the same for all equates whose names are identifiers and whose
texts have values, even if the interpreter reads names: not for a bit pattern that uses the bit of
the sign, not where the mnemonic is a macro, and not for a reserved word. -/
theorem not_sameOperand_named :
    Expression.ReadsNames ∧
    (∀ t ∈ [sessionTables, macroTables, reservedTables], ∀ entry ∈ t.equates.entries,
      Expression.isName entry.1 = true) ∧
    ¬ (sessionTables.atLine 1).SameOperand
      (assembleLine 0 [] 1 (namedPush "OPERAND_MAX") sessionTables)
      (assembleLine 0 [] 1 (computedPush "OPERAND_MAX") sessionTables) ∧
    ¬ (macroTables.atLine 8).SameOperand
      (assembleLine 2 [] 8 (namedPush "FIVE") macroTables)
      (assembleLine 2 [] 8 (computedPush "FIVE") macroTables) ∧
    ¬ (reservedTables.atLine 2).SameOperand
      (assembleLine 0 [] 2 (namedPush "import") reservedTables)
      (assembleLine 0 [] 2 (computedPush "import") reservedTables) := by
  refine ⟨Expression.interpreter_computes.name, ?_, not_sameOperand ?_, not_sameOperand ?_,
    not_sameOperand ?_⟩
  · decide +kernel
  · decide +kernel
  · decide +kernel
  · decide +kernel

end Assembly

end StackMachine
