import StackMachine.Proofs.Assembly.Expression.Arithmetic
import StackMachine.Proofs.Assembly.Expression.Parsing

/-!
# The values of integer expressions

The interpreter of the commands gives an integer expression its value, however large the numbers on
the way are, and gives none to an expression with a zero divisor. So it is one of the interpreters
that compute with integers.

## Main results

* `Expression.fdiv_eq_floor`: quotients are rounded down.
* `Expression.Form.eval_tree`: the value of the tree of an expression.
* `Expression.Form.value?_text`: the value of the text of an expression.
* `Expression.interpreter_computes`: the interpreter computes with integers.
-/

namespace StackMachine

namespace Assembly

namespace Expression

/-! ### Operations -/

theorem fdiv_eq_floor_of_pos (a : Int) {b : Int} (positive : 0 < b) :
    a.fdiv b = ⌊(a / b : ℚ)⌋ := by
  obtain ⟨n, rfl⟩ := Int.eq_ofNat_of_zero_le positive.le
  rw [Int.fdiv_eq_ediv_of_nonneg a positive.le, Int.cast_natCast, Rat.floor_intCast_div_natCast]

/-- The quotient of two integers is rounded down. -/
theorem fdiv_eq_floor (a : Int) {b : Int} (nonzero : b ≠ 0) : a.fdiv b = ⌊(a / b : ℚ)⌋ := by
  rcases lt_or_gt_of_ne nonzero with negative | positive
  · have flipped := fdiv_eq_floor_of_pos (-a) (b := -b) (by omega)
    rw [Int.neg_fdiv_neg] at flipped
    rw [flipped, Int.cast_neg, Int.cast_neg, neg_div_neg_eq]
  · exact fdiv_eq_floor_of_pos a positive

/-- An operation on two integers has a result unless it divides by zero. -/
theorem binary?_int (op : IntegerOp) (a b : Int) :
    binary? op.operator (.int a) (.int b) =
      if op.divides = true ∧ b = 0 then none else some (.int (op.apply a b)) := by
  cases op with
  | plus => rfl
  | minus => rfl
  | times => rfl
  | quotient =>
    by_cases zero : b = 0
    · simp [binary?, IntegerOp.operator, IntegerOp.divides, floorDiv?, zero]
    · simp [binary?, IntegerOp.operator, IntegerOp.divides, IntegerOp.apply, floorDiv?, zero,
        fdiv_eq_floor a zero]
  | remainder =>
    by_cases zero : b = 0
    · simp [binary?, IntegerOp.operator, IntegerOp.divides, mod?, zero]
    · simp [binary?, IntegerOp.operator, IntegerOp.divides, IntegerOp.apply, mod?, zero,
        Int.fmod_def, fdiv_eq_floor a zero]

/-! ### Expressions -/

namespace Form

/-- The value of the tree of an expression, unless a divisor is zero. -/
theorem eval_tree {closed : Bool} (f : Form closed) {env : Text → Int} (scope : Scope)
    (call : Caller) (known : ∀ n ∈ f.names, scope.find? n.text = some (.int (env n.text))) :
    f.tree.eval scope call =
      if f.NoZeroDivisor env then some (.int (f.value env)) else none := by
  induction f with
  | number n => simp [tree, Tree.eval, NoZeroDivisor, value]
  | name n => simp [tree, Tree.eval, NoZeroDivisor, value, known n (by simp [names])]
  | parens before x after ih => exact ih known
  | negate gap x ih =>
    rw [tree, Tree.eval, ih known]
    by_cases defined : x.NoZeroDivisor env
    · simp [defined, NoZeroDivisor, value, unary?]
    · simp [defined, NoZeroDivisor]
  | binary op x before after y ihx ihy =>
    simp only [names, List.forall_mem_append] at known
    rw [tree, Tree.eval, ihx known.1, ihy known.2]
    simp only [NoZeroDivisor, value]
    by_cases left : x.NoZeroDivisor env
    · by_cases right : y.NoZeroDivisor env
      · simp only [left, right, if_true, Option.bind_some, binary?_int, true_and]
        by_cases zero : op.divides = true ∧ y.value env = 0
        · rw [if_pos zero, if_neg (by simpa using zero)]
        · rw [if_neg zero, if_pos (by simpa using zero)]
      · simp [left, right]
    · simp [left]

theorem resolves_tree {closed : Bool} (f : Form closed) {known : Text → Bool}
    (all : ∀ n ∈ f.names, known n.text = true) : f.tree.resolves known = true := by
  induction f with
  | number n => rfl
  | name n => exact all n List.mem_cons_self
  | parens before x after ih => exact ih all
  | negate gap x ih => exact ih all
  | binary op x before after y ihx ihy =>
    simp only [names, List.forall_mem_append] at all
    rw [tree, Tree.resolves, ihx all.1, ihy all.2]
    rfl

end Form

/-- A name that is no statement's has its value from the equates. -/
theorem outerOf_name (n : Name) {equates : Text → Option Int} {k : Int}
    (known : equates n.text = some k) (given : List (Text × Value)) :
    outerOf equates [resultName] given n.text = some (.int k) := by
  have unassigned : [resultName].any (· = n.text) = false := by
    simpa using n.unassigned.symm
  rw [outerOf, unassigned, predefined, known]
  rfl

/-- What the text of an expression is evaluated to: its value, if no divisor is zero. -/
theorem Form.value?_text {closed : Bool} (before : Core.Gap) (f : Form closed) (after : Core.Gap)
    (env : Text → Int) {integers : Text → Option Int}
    (known : ∀ n ∈ f.names, integers n.text = some (env n.text)) :
    value? integers (before.text ++ (f.text ++ after.text)) =
      if f.NoZeroDivisor env then some (.int (f.value env)) else none := by
  obtain ⟨ts, spells, tokens⟩ := exists_tokens? before f after
  have script := f.script?_tokens spells
  have outer (n) (member : n ∈ f.names) :
      outerOf integers [resultName] [] n.text = some (.int (env n.text)) :=
    outerOf_name n (known n member) []
  have resolves : Script.resolves { result := f.tree } integers = true := by
    have all : f.tree.resolves (isKnown integers [resultName]) = true := by
      refine f.resolves_tree fun n member => ?_
      rw [isKnown, predefined, known n member]
      exact Bool.or_true _
    simp only [Script.resolves, Script.assigned, List.filterMap_nil, all]
    rfl
  rw [value?, tokens, Option.bind_some, script, Option.bind_some, if_pos resolves]
  have eval := f.eval_tree { outer := outerOf integers [resultName] [], path := [0] }
    (apply (outerOf integers [resultName] []) (2 * ts.length + 2) [] [0]) outer
  rw [Script.value?]
  simp only [Script.assigned, List.filterMap_nil, Tree.value?, eval]
  split <;> rfl

/-! ### The interpreter -/

theorem assigned?_program (expression : Text) :
    assigned? (program expression) = some expression := by
  have spelled : program expression =
      Text.ofString "rc=" ++ (expression ++ Text.ofString "\n") := by
    simp [program, resultName, Text.ofString]
  rw [assigned?, spelled]
  simp [resultName, Text.ofString]

section Interpreter

attribute [local instance] interpreter

/-- The interpreter gives an expression the value that it is evaluated to. -/
theorem result?_eq (integers : Text → Option Int) (expression : Text) :
    result? integers expression = (value? integers expression).map Value.global := by
  show ((assigned? (program expression)).bind _).bind _ = _
  rw [assigned?_program, Option.bind_some]
  cases value? integers expression <;> rfl

/-- The values of names, where those without one do not matter. -/
def valueOr (integers : Text → Option Int) (name : Text) : Int :=
  (integers name).getD 0

variable {closed : Bool} {integers : Text → Option Int}

theorem result?_text (before : Core.Gap) (f : Form closed) (after : Core.Gap)
    (known : f.Known integers) :
    result? integers (before.text ++ (f.text ++ after.text)) =
      if f.NoZeroDivisor (valueOr integers) then some (.int (f.value (valueOr integers)))
      else none := by
  have named : ∀ n ∈ f.names, integers n.text = some (valueOr integers n.text) := by
    intro n member
    obtain ⟨k, found⟩ := known n member
    rw [valueOr, found, Option.getD_some]
  rw [result?_eq, f.value?_text before after (valueOr integers) named]
  split <;> rfl

theorem result?_form (f : Form closed) (known : f.Known integers) :
    result? integers f.text =
      if f.NoZeroDivisor (valueOr integers) then some (.int (f.value (valueOr integers)))
      else none := by
  have text := result?_text ⟨[], List.forall_mem_nil _⟩ f ⟨[], List.forall_mem_nil _⟩ known
  rwa [List.nil_append, List.append_nil] at text

theorem value_of_result? {f : Form closed} (known : f.Known integers) {a : Int}
    (result : result? integers f.text = some (.int a)) :
    f.NoZeroDivisor (valueOr integers) ∧ f.value (valueOr integers) = a := by
  rw [result?_form f known, Option.ite_none_right_eq_some] at result
  obtain ⟨defined, value⟩ := result
  cases value
  exact ⟨defined, rfl⟩

theorem not_noZeroDivisor_of_result? {f : Form closed} (known : f.Known integers)
    (error : result? integers f.text = none) : ¬ f.NoZeroDivisor (valueOr integers) := by
  intro defined
  rw [result?_form f known, if_pos defined] at error
  cases error

/-- The interpreter computes with integers. -/
theorem interpreter_computes : Computes where
  number integers n := result?_form (.number n) nofun
  name integers n k found := by
    have known : (Form.name n).Known integers := by
      simpa [Form.Known, Form.names] using ⟨k, found⟩
    have value : valueOr integers n.text = k := by rw [valueOr, found, Option.getD_some]
    rw [← value]
    exact result?_form (.name n) known
  blanks before x after known :=
    (result?_text before x after known).trans (result?_form x known).symm
  parens before x after known :=
    (result?_form (.parens before x after) known).trans (result?_form x known).symm
  negate gap x known a left := by
    obtain ⟨defined, rfl⟩ := value_of_result? known left
    exact (result?_form (.negate gap x) known).trans (if_pos defined)
  negate_error gap x known error :=
    (result?_form (.negate gap x) known).trans
      (if_neg (not_noZeroDivisor_of_result? known error))
  binary op x before after y known a b left right := by
    obtain ⟨first, rfl⟩ := value_of_result? known.1 left
    obtain ⟨second, rfl⟩ := value_of_result? known.2 right
    have whole := result?_form (.binary op x before after y) (List.forall_mem_append.mpr known)
    simp only [Form.NoZeroDivisor, first, second, true_and, Form.value] at whole
    rw [whole]
    by_cases divides : op.divides = true
    · simp only [divides, forall_const, true_and, ite_not]
    · rw [if_pos fun isDivision => absurd isDivision divides, if_neg fun zero => divides zero.1]
  binary_error op x before after y known error := by
    have whole := result?_form (.binary op x before after y) (List.forall_mem_append.mpr known)
    refine whole.trans (if_neg fun defined => ?_)
    rcases error with left | right
    · exact not_noZeroDivisor_of_result? known.1 left defined.1
    · exact not_noZeroDivisor_of_result? known.2 right defined.2.1

end Interpreter

end Expression

end Assembly

end StackMachine
