import Mathlib.Data.Rat.Floor
import StackMachine.Assembly.Expression.Eval
import StackMachine.Proofs.Assembly.CoreLanguage

/-!
# Integer expressions as they are written

Expressions over decimals and names with the five operations on integers, as data that say how
every part is written. The operands of an operation are numbers, names and expressions between
parentheses, so that no precedence decides how an expression is read. Blanks may stand between any
two parts, and there may be more parentheses than needed.

The value of such an expression needs no evaluator: it is computed over all integers, with quotients
rounded down.

## Main definitions

* `Expression.Name`: the names that an expression can mention.
* `Expression.IntegerOp`: the operations on two integers.
* `Expression.Form`: an expression as it is written; `Form true` are the operands.
* `Expression.Form.text`: its written form.
* `Expression.Form.value`, `Expression.Form.NoZeroDivisor`: its value, and whether it has one.
* `Expression.Form.tree`: the expression without its layout.
-/

namespace StackMachine

namespace Assembly

namespace Expression

/-! ### Names -/

/-- Whether a word has the form of a name. -/
def isName : Text → Bool
  | [] => false
  | g :: rest => startsName g && rest.all continuesName

/-- A name: no word of the language, and not the name that receives the value. -/
structure Name where
  text : Text
  identifier : isName text = true
  free : text ∉ keywords.map Prod.fst ∧ text ≠ "lambda" ∧ text ∉ reserved
  unassigned : text ≠ resultName

namespace Name

variable (n : Name)

theorem exists_text : ∃ c w, n.text = .scalar c :: w ∧ startsName (.scalar c) = true := by
  have identifier := n.identifier
  cases text : n.text with
  | nil =>
    rw [text] at identifier
    cases identifier
  | cons g w =>
    rw [text, isName, Bool.and_eq_true] at identifier
    cases g with
    | stray b => cases identifier.1
    | scalar c => exact ⟨c, w, rfl, identifier.1⟩

theorem ne_nil : n.text ≠ [] := by
  obtain ⟨c, w, text, -⟩ := n.exists_text
  rw [text]
  nofun

/-- The glyphs of a name. -/
theorem continuesName : ∀ g ∈ n.text, continuesName g = true := by
  have identifier := n.identifier
  cases text : n.text with
  | nil => nofun
  | cons g w =>
    rw [text, isName, Bool.and_eq_true, List.all_eq_true] at identifier
    exact List.forall_mem_cons.mpr ⟨Bool.or_eq_true_iff.mpr (.inr identifier.1), identifier.2⟩

end Name

/-! ### Operations -/

/-- The operations on two integers. -/
inductive IntegerOp where
  | plus | minus | times | quotient | remainder
  deriving DecidableEq

namespace IntegerOp

/-- The written form of an operation. -/
def text : IntegerOp → Text
  | plus => "+"
  | minus => "-"
  | times => "*"
  | quotient => "//"
  | remainder => "%"

/-- The mark of an operation. -/
def mark : IntegerOp → Mark
  | plus => .plus
  | minus => .minus
  | times => .star
  | quotient => .slashSlash
  | remainder => .percent

/-- The operator of an operation. -/
def operator : IntegerOp → BinaryOp
  | plus => .add
  | minus => .sub
  | times => .mul
  | quotient => .floorDiv
  | remainder => .mod

/-- Whether the second operand of an operation is a divisor. -/
def divides : IntegerOp → Bool
  | quotient | remainder => true
  | _ => false

/-- The result of an operation: quotients are rounded down, and remainders are what is left. -/
def apply : IntegerOp → Int → Int → Int
  | plus, a, b => a + b
  | minus, a, b => a - b
  | times, a, b => a * b
  | quotient, a, b => ⌊(a / b : ℚ)⌋
  | remainder, a, b => a - b * ⌊(a / b : ℚ)⌋

end IntegerOp

/-! ### Expressions -/

/-- An expression as it is written. Those that can be operands are `Form true`. -/
inductive Form : Bool → Type
  /-- A decimal without leading zeros. -/
  | number (n : Nat) : Form true
  | name (n : Name) : Form true
  /-- An expression between parentheses. -/
  | parens {closed : Bool} (before : Core.Gap) (x : Form closed) (after : Core.Gap) : Form true
  /-- A minus sign before an operand. -/
  | negate (gap : Core.Gap) (x : Form true) : Form false
  /-- An operation between two operands. -/
  | binary (op : IntegerOp) (x : Form true) (before after : Core.Gap) (y : Form true) : Form false

namespace Form

/-- The written form of an expression. -/
def text {closed : Bool} : Form closed → Text
  | number n => Text.ofString (Numeral.decimal n)
  | name n => n.text
  | parens before x after =>
    .scalar '(' :: (before.text ++ (x.text ++ (after.text ++ [.scalar ')'])))
  | negate gap x => .scalar '-' :: (gap.text ++ x.text)
  | binary op x before after y => x.text ++ (before.text ++ (op.text ++ (after.text ++ y.text)))

/-- The names that an expression mentions. -/
def names {closed : Bool} : Form closed → List Name
  | number _ => []
  | name n => [n]
  | parens _ x _ => x.names
  | negate _ x => x.names
  | binary _ x _ _ y => x.names ++ y.names

/-- The value of an expression over all integers, where names have the values `env`. -/
def value (env : Text → Int) {closed : Bool} : Form closed → Int
  | number n => n
  | name n => env n.text
  | parens _ x _ => x.value env
  | negate _ x => -x.value env
  | binary op x _ _ y => op.apply (x.value env) (y.value env)

/-- No divisor in an expression is zero. -/
def NoZeroDivisor (env : Text → Int) {closed : Bool} : Form closed → Prop
  | number _ => True
  | name _ => True
  | parens _ x _ => x.NoZeroDivisor env
  | negate _ x => x.NoZeroDivisor env
  | binary op x _ _ y =>
    x.NoZeroDivisor env ∧ y.NoZeroDivisor env ∧ (op.divides = true → y.value env ≠ 0)

/-- Divisors can be checked. -/
def decideDivisors (env : Text → Int) {closed : Bool} :
    (f : Form closed) → Decidable (f.NoZeroDivisor env)
  | number _ => isTrue trivial
  | name _ => isTrue trivial
  | parens _ x _ => x.decideDivisors env
  | negate _ x => x.decideDivisors env
  | binary _ x _ _ y =>
    have := x.decideDivisors env
    have := y.decideDivisors env
    inferInstanceAs (Decidable (_ ∧ _ ∧ _))

instance (env : Text → Int) {closed : Bool} (f : Form closed) : Decidable (f.NoZeroDivisor env) :=
  f.decideDivisors env

/-- The expression without its layout. -/
def tree {closed : Bool} : Form closed → Tree
  | number n => .int n
  | name n => .name n.text
  | parens _ x _ => x.tree
  | negate _ x => .unary .minus x.tree
  | binary op x _ _ y => .binary op.operator x.tree y.tree

end Form

end Expression

end Assembly

end StackMachine
