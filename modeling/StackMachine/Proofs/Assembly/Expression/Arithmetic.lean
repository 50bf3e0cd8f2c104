import StackMachine.Proofs.Assembly.CoreWords
import StackMachine.Proofs.Assembly.Expression.Forms

/-!
# Interpreters that compute with integers

What is asked of an interpreter so that integer expressions have the values that they are written
for: it reads decimals and names, blanks and parentheses do not count, a minus sign negates, and the
five operations are those on integers of any size, where a zero divisor is an error. Each of these
says what one construct of the language means. That a whole expression then has its value, however
deep it is, is an induction over the expression.

## Main definitions

* `Expression.ReadsNames`: names of integers stand for them.
* `Expression.Computes`: integer expressions are read and computed, one construct at a time.

## Main results

* `Expression.Computes.result?_form`: what an expression stands for.
* `Expression.Computes.evaluate?_text`: the 64-bit integer that an expression stands for.
-/

namespace StackMachine

namespace Assembly

namespace Expression

/-- All names that an expression mentions stand for integers. -/
def Form.Known {closed : Bool} (f : Form closed) (integers : Text → Option Int) : Prop :=
  ∀ n ∈ f.names, ∃ k, integers n.text = some k

variable [Interpreter]

/-! ### What is asked of an interpreter -/

/-- A name that stands for an integer is an expression with this value. -/
def ReadsNames : Prop :=
  ∀ (integers : Text → Option Int) (n : Name) (k : Int), integers n.text = some k →
    result? integers n.text = some (.int k)

/-- The constructs of integer expressions mean what they are written for. -/
structure Computes : Prop where
  /-- A decimal stands for its number. -/
  number (integers : Text → Option Int) (n : Nat) :
    result? integers (Form.number n).text = some (.int n)
  /-- A name stands for its integer. -/
  name : ReadsNames
  /-- Blanks around an expression do not count. -/
  blanks {integers : Text → Option Int} {closed : Bool} (before : Core.Gap) (x : Form closed)
    (after : Core.Gap) (known : x.Known integers) :
    result? integers (before.text ++ (x.text ++ after.text)) = result? integers x.text
  /-- Parentheses do not count. -/
  parens {integers : Text → Option Int} {closed : Bool} (before : Core.Gap) (x : Form closed)
    (after : Core.Gap) (known : x.Known integers) :
    result? integers (Form.parens before x after).text = result? integers x.text
  /-- A minus sign before an operand negates it. -/
  negate {integers : Text → Option Int} (gap : Core.Gap) (x : Form true) (known : x.Known integers)
    {a : Int} (left : result? integers x.text = some (.int a)) :
    result? integers (Form.negate gap x).text = some (.int (-a))
  /-- An error in an operand is one of its negation. -/
  negate_error {integers : Text → Option Int} (gap : Core.Gap) (x : Form true)
    (known : x.Known integers) (error : result? integers x.text = none) :
    result? integers (Form.negate gap x).text = none
  /-- An operation is computed over all integers, and a zero divisor is an error. -/
  binary {integers : Text → Option Int} (op : IntegerOp) (x : Form true) (before after : Core.Gap)
    (y : Form true) (known : x.Known integers ∧ y.Known integers) {a b : Int}
    (left : result? integers x.text = some (.int a))
    (right : result? integers y.text = some (.int b)) :
    result? integers (Form.binary op x before after y).text =
      if op.divides = true ∧ b = 0 then none else some (.int (op.apply a b))
  /-- An error in an operand is one of the operation. -/
  binary_error {integers : Text → Option Int} (op : IntegerOp) (x : Form true)
    (before after : Core.Gap) (y : Form true) (known : x.Known integers ∧ y.Known integers)
    (error : result? integers x.text = none ∨ result? integers y.text = none) :
    result? integers (Form.binary op x before after y).text = none

/-! ### What follows for whole expressions -/

namespace Computes

variable {closed : Bool} {integers : Text → Option Int}

/-- An expression stands for its value over all integers, unless a divisor is zero. -/
theorem result?_form (computes : Computes) (f : Form closed) {env : Text → Int}
    (known : ∀ n ∈ f.names, integers n.text = some (env n.text)) :
    result? integers f.text =
      if f.NoZeroDivisor env then some (.int (f.value env)) else none := by
  have all {closed : Bool} {x : Form closed}
      (names : ∀ n ∈ x.names, integers n.text = some (env n.text)) : x.Known integers :=
    fun n member => ⟨_, names n member⟩
  induction f with
  | number n => exact computes.number integers n
  | name n => exact computes.name integers n _ (known n List.mem_cons_self)
  | parens before x after ih =>
    rw [computes.parens before x after (all known)]
    exact ih known
  | negate gap x ih =>
    have inner := ih known
    by_cases defined : x.NoZeroDivisor env
    · rw [if_pos defined] at inner
      rw [computes.negate gap x (all known) inner]
      exact (if_pos defined).symm
    · rw [if_neg defined] at inner
      rw [computes.negate_error gap x (all known) inner]
      exact (if_neg defined).symm
  | binary op x before after y ihx ihy =>
    obtain ⟨left, right⟩ := List.forall_mem_append.mp known
    have first := ihx left
    have second := ihy right
    by_cases defined : x.NoZeroDivisor env ∧ y.NoZeroDivisor env
    · rw [if_pos defined.1] at first
      rw [if_pos defined.2] at second
      rw [computes.binary op x before after y ⟨all left, all right⟩ first second]
      simp only [Form.NoZeroDivisor, defined, true_and, Form.value]
      by_cases zero : op.divides = true ∧ y.value env = 0
      · rw [if_pos zero, if_neg (by simpa using zero)]
      · rw [if_neg zero, if_pos (by simpa using zero)]
    · have error : result? integers x.text = none ∨ result? integers y.text = none := by
        rw [first, second]
        simpa only [ite_eq_right_iff, reduceCtorEq, imp_false, ← not_and_or] using defined
      rw [computes.binary_error op x before after y ⟨all left, all right⟩ error,
        if_neg fun whole => defined ⟨whole.1, whole.2.1⟩]

/-- The number that the text of an expression stands for: its value, if no divisor is zero and the
value has 64 bits. The numbers on the way have any size. -/
theorem evaluate?_text (computes : Computes) (before : Core.Gap) (f : Form closed)
    (after : Core.Gap) (env : Text → Int)
    (known : ∀ n ∈ f.names, integers n.text = some (env n.text)) :
    evaluate? integers (before.text ++ (f.text ++ after.text)) =
      if f.NoZeroDivisor env ∧ -2 ^ 63 ≤ f.value env ∧ f.value env < 2 ^ 63 then
        some (f.value env)
      else none := by
  rw [evaluate?, computes.blanks before f after fun n member => ⟨_, known n member⟩,
    computes.result?_form f known]
  by_cases defined : f.NoZeroDivisor env
  · simp only [defined, if_true, true_and, ← Core.fits_64_iff]
  · simp only [defined, if_false, false_and]

end Computes

/-- An expression that is the name of an integer of 64 bits has its value. -/
theorem ReadsNames.evaluate?_name (reads : ReadsNames) (n : Name) {integers : Text → Option Int}
    {k : Int} (known : integers n.text = some k) (lower : -2 ^ 63 ≤ k) (upper : k < 2 ^ 63) :
    evaluate? integers n.text = some k := by
  rw [evaluate?, reads integers n k known]
  exact if_pos ((Core.fits_64_iff k).mpr ⟨lower, upper⟩)

end Expression

end Assembly

end StackMachine
