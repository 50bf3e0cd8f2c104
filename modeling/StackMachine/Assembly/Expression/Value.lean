import StackMachine.Assembly.Expression.Tree

/-!
# Values of expressions

Expressions are evaluated over unbounded integers, floating-point numbers, strings, truth
values, lists, tuples, functions, and mappings, which hold the arguments by name that a
function takes beside its parameters.

## Main definitions

* `Expression.Value`: a value.
* `Expression.Value.truth`: whether a value counts as true.
* `Expression.Value.items?`: what a value holds, one after another.
-/

namespace StackMachine

namespace Assembly

namespace Expression

/-- A value of an expression. -/
inductive Value where
  | none
  | bool (b : Bool)
  | int (n : Int)
  | float (x : Float)
  | string (bytes : ByteArray)
  /-- A string that is no text. -/
  | bytes (bytes : ByteArray)
  | list (items : List Value)
  | tuple (items : List Value)
  /-- Values with names, in order; no two names are the same. -/
  | mapping (names : List Text) (values : List Value)
  /-- A function that comes with the language. -/
  | builtin (name : Text)
  /-- A function of the text, with the defaults of its optional parameters and the names and values
  in scope where it was made; the calls that led there tell it from other functions of its text. -/
  | function (id : Nat) (path : List Nat) (parameters : Parameters) (defaults : List Value)
      (body : Tree) (names : List Text) (values : List Value)

namespace Value

/-- Whether a value counts as true. -/
def truth : Value → Bool
  | .none => false
  | .bool b => b
  | .int n => n ≠ 0
  | .float x => x != 0
  | .string s => !s.isEmpty
  | .list xs => !xs.isEmpty
  | .bytes s => !s.isEmpty
  | .tuple xs => !xs.isEmpty
  | .mapping names _ => !names.isEmpty
  | .builtin _ => true
  | .function .. => true

/-- The string of a name. -/
def ofName (name : Text) : Value :=
  .string name.bytes.toByteArray

/-- The items of a list or a tuple, or the names of a mapping. -/
def items? : Value → Option (List Value)
  | .list xs => some xs
  | .tuple xs => some xs
  | .mapping names _ => some (names.map ofName)
  | _ => .none

/-- The value with a name. -/
def lookup? (name : Text) (names : List Text) (values : List Value) : Option Value :=
  ((names.zip values).find? (·.1 = name)).map (·.2)

/-- The value with a name in a mapping. -/
def named? (name : Text) : Value → Option Value
  | .mapping names values => lookup? name names values
  | _ => .none

end Value

end Expression

end Assembly

end StackMachine
