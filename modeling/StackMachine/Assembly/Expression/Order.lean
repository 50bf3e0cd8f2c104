import StackMachine.Assembly.Expression.Value

/-!
# Equality and order of values

Integers and floating-point numbers are compared by their exact values, and what is no
number comes last. Lists and tuples are compared item by item, to a limited depth, and
mappings are equal if they have equal values by the same names. A function is equal to
itself only.

## Main definitions

* `Expression.Value.equal?`: whether two values are equal.
* `Expression.Value.compare?`: the order of two values.
* `Expression.Value.contains?`: whether a value is an item or a part of another.
-/

namespace StackMachine

namespace Assembly

namespace Expression

/-! ### Numbers -/

/-- The order of two floating-point numbers; what is no number comes last. -/
def compareFloat (x y : Float) : Ordering :=
  if y < x then .gt
  else if x < y then .lt
  else if x == y then .eq
  else if x.isNaN && y.isNaN then .eq
  else if x.isNaN then .gt
  else .lt

/-- The order of an integer and a floating-point number. -/
def compareIntFloat (n : Int) (x : Float) : Ordering :=
  if x.isNaN then .lt
  else if x.isInf then if 0 < x then .lt else .gt
  else Fraction.compareInt n x

/-! ### Values -/

namespace Value

/-- Whether the values of every pair are equal, by an equality that may fail. -/
def pairsEqual? (equal : Value → Value → Option Bool) : List (Value × Value) → Option Bool
  | [] => some true
  | (x, y) :: rest => (equal x y).bind fun b => if b then pairsEqual? equal rest else some false

/-- Whether two lists are equal item by item. Lists of different lengths differ, whatever their
items. -/
def itemsEqual? (equal : Value → Value → Option Bool) (xs ys : List Value) : Option Bool :=
  if xs.length ≠ ys.length then some false else pairsEqual? equal (xs.zip ys)

/-- Whether a mapping has the given names and equal values by them. -/
def entriesEqual? (equal : Value → Value → Option Bool) (y : Value) :
    List (Text × Value) → Option Bool
  | [] => some true
  | (name, x) :: rest =>
    match y.named? name with
    | .none => some false
    | some value =>
      (equal x value).bind fun b => if b then entriesEqual? equal y rest else some false

/-- Whether two values are equal, where values may be nested to a depth. Values of different kinds
are not equal, save numbers. -/
def equalTo? : Nat → Value → Value → Option Bool
  | 0, _, _ => .none
  | depth + 1, x, y =>
    match x, y with
    | .none, .none => some true
    | .bool a, .bool b => some (a == b)
    | .int a, .int b => some (a == b)
    | .float a, .float b => some (compareFloat a b == .eq)
    | .int a, .float b => some (compareIntFloat a b == .eq)
    | .float a, .int b => some (compareIntFloat b a == .eq)
    | .string a, .string b => some (a == b)
    | .bytes a, .bytes b => some (a == b)
    | .list as, .list bs => itemsEqual? (equalTo? depth) as bs
    | .tuple as, .tuple bs => itemsEqual? (equalTo? depth) as bs
    | .mapping names values, .mapping others _ =>
      if names.length ≠ others.length then some false
      else entriesEqual? (equalTo? depth) y (names.zip values)
    | .builtin a, .builtin b => some (a == b)
    | .function i p .., .function j q .. => some (i == j && p == q)
    | _, _ => some false

/-- The order of two lists: that of the first items that differ, else that of the lengths. -/
def compareItems? (equal : Value → Value → Option Bool)
    (compare : Value → Value → Option Ordering) : List Value → List Value → Option Ordering
  | [], [] => some .eq
  | [], _ :: _ => some .lt
  | _ :: _, [] => some .gt
  | a :: as, b :: bs =>
    (equal a b).bind fun same =>
      if same then compareItems? equal compare as bs else compare a b

/-- The order of two values, if they have one, where values may be nested to a depth. -/
def compareTo? : Nat → Value → Value → Option Ordering
  | 0, _, _ => .none
  | depth + 1, x, y =>
    match x, y with
    | .bool a, .bool b => some (compare a.toNat b.toNat)
    | .int a, .int b => some (compare a b)
    | .float a, .float b => some (compareFloat a b)
    | .int a, .float b => some (compareIntFloat a b)
    | .float a, .int b => some (compareIntFloat b a).swap
    | .string a, .string b => some (compare a.toList b.toList)
    | .bytes a, .bytes b => some (compare a.toList b.toList)
    | .list as, .list bs => compareItems? (equalTo? depth) (compareTo? depth) as bs
    | .tuple as, .tuple bs => compareItems? (equalTo? depth) (compareTo? depth) as bs
    | _, _ => .none

/-- The depth to which values are compared. -/
def comparedDepth : Nat := 10

/-- Whether two values are equal. -/
def equal? (x y : Value) : Option Bool :=
  equalTo? comparedDepth x y

/-- The order of two values, if they have one. -/
def compare? (x y : Value) : Option Ordering :=
  compareTo? comparedDepth x y

/-- Whether one of some values is equal to a value. -/
def memberOf? (x : Value) : List Value → Option Bool
  | [] => some false
  | y :: rest => (equal? y x).bind fun b => if b then some true else memberOf? x rest

/-- Whether a byte string stands inside another. -/
def inside (part : List UInt8) : List UInt8 → Bool
  | [] => part.isEmpty
  | b :: rest => part.isPrefixOf (b :: rest) || inside part rest

/-- Whether the second value is an item, a name or a part of the first. -/
def contains? (whole x : Value) : Option Bool :=
  match whole, x with
  | .string whole, .string part => some (inside part.toList whole.toList)
  | .bytes whole, .bytes part => some (inside part.toList whole.toList)
  | .bytes whole, .int n =>
    if 0 ≤ n ∧ n < 0x100 then some (whole.toList.any (·.toNat = n.toNat)) else .none
  | .mapping names _, .string s => some (names.any (·.bytes = s.toList))
  | .mapping _ _, _ => some false
  | whole, x => whole.items?.bind (memberOf? x)

end Value

end Expression

end Assembly

end StackMachine
