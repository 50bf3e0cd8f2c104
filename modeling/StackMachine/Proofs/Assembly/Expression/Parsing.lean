import StackMachine.Proofs.Assembly.Expression.Lexing

/-!
# The trees of integer expressions

How the tokens of an expression are read. An operand is a primary; an operation between two of them
is read on the one level of the grammar that has its operator, and all other levels hand it on. So
the tree of an expression is the one that is written.

## Main definitions

* `Expression.isEnd`, `Expression.endsPrimary`: what can stand behind an expression and behind an
  operand.

## Main results

* `Expression.arithmeticOver_single`, `Expression.arithmeticOver_binary`: operands and operations on
  the levels of arithmetic.
* `Expression.Form.primary_and_whole`: the tokens of an expression are read as its tree.
* `Expression.Form.script?_tokens`: so is a text that holds nothing else.
-/

namespace StackMachine

namespace Assembly

namespace Expression

/-! ### What follows -/

/-- Whether nothing follows, or the parenthesis around an expression closes. -/
def isEnd : List Token → Bool
  | [] => true
  | .mark m :: _ => m = .closeParen
  | _ => false

/-- Whether no call, index or field follows. -/
def endsPrimary : List Token → Bool
  | [] => true
  | .mark m :: _ => m ≠ .dot && m ≠ .openBracket
  | _ => false

/-- Whether a token can begin an expression. -/
def begins : Token → Bool
  | .int _ | .name _ | .openParen _ => true
  | .mark m => m = .minus
  | _ => false

theorem endsPrimary_of_isEnd {rest : List Token} (h : isEnd rest = true) :
    endsPrimary rest = true := by
  unfold isEnd at h
  split at h
  · rfl
  · obtain rfl := of_decide_eq_true h
    rfl
  · cases h

theorem suffixes_eq {rest : List Token} (h : endsPrimary rest = true) (bound fuel : Nat)
    (expression : Parser Tree) (x : Tree) :
    suffixes bound expression fuel x rest = some (x, rest) := by
  cases fuel with
  | zero => rfl
  | succ fuel =>
    unfold suffixes
    split <;> first
      | rfl
      | cases h

/-! ### Levels -/

section Levels

variable {operand : Parser Tree} {bound : Nat} {x y : Tree} {tokens middle rest : List Token}

theorem chain_eq {joiner : Joiner} (h : ∀ m behind, rest = .mark m :: behind → joiner m = none)
    (fuel : Nat) : chain operand joiner fuel x rest = some (x, rest) := by
  unfold chain
  split
  · rename_i m behind
    rw [h m behind rfl]
  · rfl

/-- No operator of some levels follows. -/
def Loose (levels : List (List (Mark × BinaryOp))) (rest : List Token) : Prop :=
  ∀ m behind, rest = .mark m :: behind → ∀ operators ∈ levels, operators.lookup m = none

theorem Loose.joiner {operators : List (Mark × BinaryOp)} {levels : List (List (Mark × BinaryOp))}
    (loose : Loose levels rest) (member : operators ∈ levels) (m : Mark) (behind : List Token)
    (h : rest = .mark m :: behind) : joinerOf operators m = none := by
  rw [joinerOf, loose m behind h operators member]
  rfl

/-- An operand without an operator is handed on by all levels. -/
theorem arithmeticOver_single {levels : List (List (Mark × BinaryOp))}
    (read : operand tokens = some (x, rest)) (loose : Loose levels rest) :
    arithmeticOver bound operand levels tokens = some (x, rest) := by
  induction levels with
  | nil => exact read
  | cons operators tighter ih =>
    have inner := ih fun m behind h o member => loose m behind h o (List.mem_cons_of_mem _ member)
    rw [arithmeticOver, level, inner]
    exact chain_eq (loose.joiner List.mem_cons_self) bound

/-- An operation is read on the level of its operator. -/
theorem arithmeticOver_binary {looser tighter : List (List (Mark × BinaryOp))}
    {operators : List (Mark × BinaryOp)} {m : Mark} {op : BinaryOp}
    (first : operand tokens = some (x, .mark m :: middle))
    (second : operand middle = some (y, rest)) (positive : 0 < bound)
    (found : operators.lookup m = some op) (other : ∀ o ∈ tighter, o.lookup m = none)
    (loose : Loose (looser ++ operators :: tighter) rest) :
    arithmeticOver bound operand (looser ++ operators :: tighter) tokens =
      some (.binary op x y, rest) := by
  induction looser with
  | nil =>
    have inside : Loose tighter rest := fun m behind h o member =>
      loose m behind h o (List.mem_cons_of_mem _ member)
    have left : arithmeticOver bound operand tighter tokens = some (x, .mark m :: middle) := by
      refine arithmeticOver_single first fun m' behind h o member => ?_
      cases h
      exact other o member
    have right : arithmeticOver bound operand tighter middle = some (y, rest) :=
      arithmeticOver_single second inside
    obtain ⟨fuel, rfl⟩ := Nat.exists_eq_succ_of_ne_zero positive.ne'
    have joined : joinerOf operators m = some (.binary op) := by
      rw [joinerOf, found]
      rfl
    rw [List.nil_append, arithmeticOver, level, left]
    simp only [Option.bind_some, chain, joined, right]
    exact chain_eq (loose.joiner List.mem_cons_self) fuel
  | cons first looser ih =>
    have inner := ih fun m behind h o member => loose m behind h o (List.mem_cons_of_mem _ member)
    rw [List.cons_append, arithmeticOver, level, inner]
    exact chain_eq (loose.joiner List.mem_cons_self) bound

end Levels

/-! ### Expressions -/

section Expressions

variable {fuel : Nat} {x y : Tree} {t : Token} {tokens middle rest : List Token}

theorem loose_of_isEnd (h : isEnd rest = true) : Loose arithmetic rest := by
  rintro m behind rfl operators member
  obtain rfl := of_decide_eq_true h
  have all : ∀ operators ∈ arithmetic, operators.lookup .closeParen = none := by decide
  exact all operators member

theorem joiner_of_isEnd (h : isEnd rest = true) {joiner : Joiner}
    (closes : joiner .closeParen = none) (m : Mark) (behind : List Token)
    (mark : rest = .mark m :: behind) : joiner m = none := by
  subst mark
  obtain rfl := of_decide_eq_true h
  exact closes

/-- A primary without calls, indices and fields is its first part. -/
theorem parse_primary_of_atom (ends : endsPrimary rest = true)
    (read : atom fuel (parse fuel .expression) (parse fuel .primary) tokens = some (x, rest)) :
    parse (fuel + 1) .primary tokens = some (x, rest) := by
  rw [parse, read]
  exact suffixes_eq ends fuel fuel _ x

/-- Arithmetic up to the end of an expression is the expression. -/
theorem parse_expression_of_arithmetic (starts : begins t = true) (ends : isEnd rest = true)
    (read : arithmeticOver fuel (parse fuel .primary) arithmetic (t :: tokens) = some (x, rest)) :
    parse (fuel + 1) .expression (t :: tokens) = some (x, rest) := by
  have compared : comparison (arithmeticOver fuel (parse fuel .primary) arithmetic) (t :: tokens) =
      some (x, rest) := by
    rw [comparison, read]
    simp only [Option.bind_some]
    split
    · rename_i m behind
      obtain rfl := of_decide_eq_true ends
      rfl
    · rfl
  have affirmed : negation (comparison (arithmeticOver fuel (parse fuel .primary) arithmetic))
      (t :: tokens) = some (x, rest) := by
    unfold negation
    split
    · rename_i same
      obtain ⟨rfl, -⟩ := List.cons.inj same
      cases starts
    · exact compared
  have joined : disjunction fuel (parse fuel .primary) (t :: tokens) = some (x, rest) := by
    simp only [disjunction, level, affirmed, Option.bind_some]
    rw [chain_eq (joiner_of_isEnd ends rfl)]
    exact chain_eq (joiner_of_isEnd ends rfl) fuel
  unfold parse
  split
  · rename_i same
    obtain ⟨rfl, -⟩ := List.cons.inj same
    cases starts
  · rw [joined, Option.bind_some]
    dsimp only
    split
    · simp [isEnd] at ends
    · rfl

theorem parse_expression_of_primary (starts : begins t = true) (ends : isEnd rest = true)
    (read : parse fuel .primary (t :: tokens) = some (x, rest)) :
    parse (fuel + 1) .expression (t :: tokens) = some (x, rest) :=
  parse_expression_of_arithmetic starts ends (arithmeticOver_single read (loose_of_isEnd ends))

theorem parse_expression_of_binary (op : IntegerOp) (starts : begins t = true)
    (ends : isEnd rest = true) (positive : 0 < fuel)
    (first : parse fuel .primary (t :: tokens) = some (x, .mark op.mark :: middle))
    (second : parse fuel .primary middle = some (y, rest)) :
    parse (fuel + 1) .expression (t :: tokens) = some (.binary op.operator x y, rest) := by
  obtain ⟨looser, operators, tighter, levels, found, other⟩ :
      ∃ looser operators tighter, arithmetic = looser ++ operators :: tighter ∧
        operators.lookup op.mark = some op.operator ∧ ∀ o ∈ tighter, o.lookup op.mark = none := by
    cases op with
    | plus | minus => exact ⟨arithmetic.take 4, _, _, rfl, rfl, by decide⟩
    | times | quotient | remainder => exact ⟨arithmetic.take 5, _, _, rfl, rfl, by decide⟩
  have loose := loose_of_isEnd ends
  refine parse_expression_of_arithmetic starts ends ?_
  rw [levels] at loose ⊢
  exact arithmeticOver_binary first second positive found other loose

end Expressions

/-! ### Forms -/

namespace Form

/-- Whether an expression is an operation on two operands. -/
def isBinary {closed : Bool} : Form closed → Bool
  | binary .. => true
  | _ => false

theorem isBinary_eq_false (f : Form true) : f.isBinary = false := by
  cases f <;> rfl

theorem Spells.exists_begins {closed : Bool} {f : Form closed} {ts : List Token}
    (spells : f.Spells ts) : ∃ t rest, ts = t :: rest ∧ begins t = true := by
  induction f generalizing ts with
  | number n => exact ⟨_, [], spells, rfl⟩
  | name n => exact ⟨_, [], spells, rfl⟩
  | parens before x after =>
    obtain ⟨number, inner, -, rfl⟩ := spells
    exact ⟨_, _, rfl, rfl⟩
  | negate gap x =>
    obtain ⟨inner, -, rfl⟩ := spells
    exact ⟨_, _, rfl, rfl⟩
  | binary op x before after y ihx =>
    obtain ⟨left, right, spells, -, rfl⟩ := spells
    obtain ⟨t, rest, rfl, starts⟩ := ihx spells
    exact ⟨t, _, rfl, starts⟩

/-- The tokens of an expression that is no operation are read as a primary. -/
def Primary {closed : Bool} (f : Form closed) : Prop :=
  f.isBinary = false → ∀ fuel ts rest, f.Spells ts → endsPrimary rest = true →
    2 * ts.length ≤ fuel → parse fuel .primary (ts ++ rest) = some (f.tree, rest)

/-- The tokens of an expression are read as an expression. -/
def Whole {closed : Bool} (f : Form closed) : Prop :=
  ∀ fuel ts rest, f.Spells ts → isEnd rest = true → 2 * ts.length + 1 ≤ fuel →
    parse fuel .expression (ts ++ rest) = some (f.tree, rest)

theorem Primary.whole {closed : Bool} {f : Form closed} (primary : f.Primary)
    (unary : f.isBinary = false) : f.Whole := by
  intro fuel ts rest spells ends enough
  obtain ⟨fuel, rfl⟩ := Nat.exists_eq_succ_of_ne_zero (n := fuel) (by omega)
  have read := primary unary fuel ts rest spells (endsPrimary_of_isEnd ends) (by omega)
  obtain ⟨t, ts, rfl, starts⟩ := spells.exists_begins
  exact parse_expression_of_primary starts ends read

theorem primary_parens {closed : Bool} {x : Form closed} (whole : x.Whole)
    (before after : Core.Gap) : (parens before x after).Primary := by
  rintro - fuel ts rest ⟨number, inner, spells, rfl⟩ ends enough
  simp only [List.length_cons, List.length_append, List.length_nil] at enough
  obtain ⟨fuel, rfl⟩ := Nat.exists_eq_succ_of_ne_zero (n := fuel) (by omega)
  have read := whole fuel inner (.mark .closeParen :: rest) spells rfl (by omega)
  obtain ⟨t, inner, rfl, starts⟩ := spells.exists_begins
  refine parse_primary_of_atom ends ?_
  rw [List.cons_append, List.append_assoc, atom, parenthesised]
  · rw [List.cons_append, List.cons_append, List.nil_append, ← List.cons_append, read]
    rfl
  · intro behind same
    obtain ⟨rfl, -⟩ := List.cons.inj same
    cases starts

theorem primary_negate {x : Form true} (primary : x.Primary) (gap : Core.Gap) :
    (negate gap x).Primary := by
  rintro - fuel ts rest ⟨inner, spells, rfl⟩ ends enough
  simp only [List.length_cons] at enough
  obtain ⟨fuel, rfl⟩ := Nat.exists_eq_succ_of_ne_zero (n := fuel) (by omega)
  have read := primary x.isBinary_eq_false fuel inner rest spells ends (by omega)
  refine parse_primary_of_atom ends ?_
  rw [List.cons_append, atom, read]
  rfl

theorem whole_binary {x y : Form true} (left : x.Primary) (right : y.Primary) (op : IntegerOp)
    (before after : Core.Gap) : (binary op x before after y).Whole := by
  rintro fuel ts rest ⟨ts, ts', spells, spells', rfl⟩ ends enough
  simp only [List.length_cons, List.length_append] at enough
  obtain ⟨fuel, rfl⟩ := Nat.exists_eq_succ_of_ne_zero (n := fuel) (by omega)
  have operator : endsPrimary (.mark op.mark :: (ts' ++ rest)) = true := by cases op <;> rfl
  have first := left x.isBinary_eq_false fuel ts _ spells operator (by omega)
  have second := right y.isBinary_eq_false fuel ts' rest spells' (endsPrimary_of_isEnd ends)
    (by omega)
  obtain ⟨t, ts, rfl, starts⟩ := spells.exists_begins
  rw [List.append_assoc]
  exact parse_expression_of_binary op starts ends (by omega) first second

/-- The tokens of an expression are read as its tree, and as an operand if it is one. -/
theorem primary_and_whole {closed : Bool} (f : Form closed) : f.Primary ∧ f.Whole := by
  induction f with
  | number n =>
    have primary : (number n).Primary := by
      rintro - fuel ts rest rfl ends enough
      obtain ⟨fuel, rfl⟩ := Nat.exists_eq_succ_of_ne_zero (n := fuel) (by rintro rfl; cases enough)
      exact parse_primary_of_atom ends rfl
    exact ⟨primary, primary.whole rfl⟩
  | name n =>
    have primary : (name n).Primary := by
      rintro - fuel ts rest rfl ends enough
      obtain ⟨fuel, rfl⟩ := Nat.exists_eq_succ_of_ne_zero (n := fuel) (by rintro rfl; cases enough)
      exact parse_primary_of_atom ends rfl
    exact ⟨primary, primary.whole rfl⟩
  | parens before x after ih =>
    have primary := primary_parens ih.2 before after
    exact ⟨primary, primary.whole rfl⟩
  | negate gap x ih =>
    have primary := primary_negate ih.1 gap
    exact ⟨primary, primary.whole rfl⟩
  | binary op x before after y ihx ihy => exact ⟨nofun, whole_binary ihx.1 ihy.1 op before after⟩

/-- The tokens of an expression are its script: no statement stands behind it. -/
theorem script?_tokens {closed : Bool} (f : Form closed) {ts : List Token} (spells : f.Spells ts) :
    script? ts = some { result := f.tree } := by
  have read := f.primary_and_whole.2 (2 * ts.length + 2) ts [] spells rfl (by omega)
  rw [List.append_nil] at read
  have line : lineTree (2 * ts.length + 2) (parse (2 * ts.length + 2) .expression) ts =
      some (f.tree, []) := by
    rw [lineTree, openTree, openItems, read]
    rfl
  rw [script?, line]
  rfl

end Form

end Expression

end Assembly

end StackMachine
