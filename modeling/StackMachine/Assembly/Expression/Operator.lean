import StackMachine.Assembly.Expression.Order
import StackMachine.Assembly.Expression.Printed

/-!
# Operators on values

The results of the operators of expressions. An operator on values of the wrong kind has
no result.

## Main definitions

* `Expression.unary?`, `Expression.binary?`: the operators.
* `Expression.index?`, `Expression.slice?`: an item and a slice of a value.
-/

namespace StackMachine

namespace Assembly

namespace Expression

/-- The number of items that a repetition may have. -/
def repetitionLimit : Nat := 0x40000000

/-- How often something of a size is repeated; a negative number counts as zero. The number is to
fit in 32 bits and the size of the result is limited, unless there is nothing to repeat. -/
def times? (size : Nat) (n : Int) : Option Nat :=
  if size = 0 then some 0
  else if !Literal.fits 32 n ∨ repetitionLimit ≤ size * n.toNat then none
  else some n.toNat

/-- A string repeated a number of times, by doubling. -/
def repeatString (s : ByteArray) (n : Nat) : ByteArray :=
  if n = 0 then .empty
  else
    let half := repeatString s (n / 2)
    if n % 2 = 0 then half ++ half else half ++ half ++ s
termination_by n

/-- A string repeated as often as an integer says. -/
def repeatString? (s : ByteArray) (n : Int) : Option ByteArray :=
  (times? s.size n).map (repeatString s)

/-- The items of a list repeated as often as an integer says. -/
def repeatItems? (xs : List Value) (n : Int) : Option (List Value) :=
  (times? xs.length n).map fun k => (List.replicate k xs).flatten

/-- The sum of two values, or the first followed by the second. -/
def add? : Value → Value → Option Value
  | .int a, .int b => some (.int (a + b))
  | .float a, .float b => some (.float (a + b))
  | .int a, .float b => (Fraction.floatOfInt? a).map fun a => .float (a + b)
  | .float a, .int b => (Fraction.floatOfInt? b).map fun b => .float (a + b)
  | .string a, .string b => some (.string (a ++ b))
  | .list a, .list b => some (.list (a ++ b))
  | .tuple a, .tuple b => some (.tuple (a ++ b))
  | _, _ => none

/-- The product of two values, or a value repeated. -/
def mul? : Value → Value → Option Value
  | .int a, .int b => some (.int (a * b))
  | .float a, .float b => some (.float (a * b))
  | .int a, .float b => (Fraction.floatOfInt? a).map fun a => .float (a * b)
  | .float a, .int b => (Fraction.floatOfInt? b).map fun b => .float (a * b)
  | .string s, .int n => (repeatString? s n).map .string
  | .int n, .string s => (repeatString? s n).map .string
  | .bytes s, .int n => (repeatString? s n).map .bytes
  | .int n, .bytes s => (repeatString? s n).map .bytes
  | .list xs, .int n => (repeatItems? xs n).map .list
  | .int n, .list xs => (repeatItems? xs n).map .list
  | .tuple xs, .int n => (repeatItems? xs n).map .tuple
  | .int n, .tuple xs => (repeatItems? xs n).map .tuple
  | _, _ => none

/-- The two operands of an operator on floating-point numbers. -/
def floats? : Value → Value → Option (Float × Float)
  | .float a, .float b => some (a, b)
  | .int a, .float b => (Fraction.floatOfInt? a).map fun a => (a, b)
  | .float a, .int b => (Fraction.floatOfInt? b).map fun b => (a, b)
  | _, _ => none

/-- The operands of a division, unless the divisor is zero. -/
def divisible? (x y : Value) : Option (Float × Float) :=
  (floats? x y).bind fun (a, b) => if b == 0 then none else some (a, b)

/-- The difference of two values. -/
def sub? : Value → Value → Option Value
  | .int a, .int b => some (.int (a - b))
  | x, y => (floats? x y).map fun (a, b) => .float (a - b)

/-- The quotient of two values, as a floating-point number. -/
def div? : Value → Value → Option Value
  | .int a, .int b =>
    (Fraction.floatOfInt? a).bind fun a => (Fraction.floatOfInt? b).bind fun b =>
      if b == 0 then none else some (.float (a / b))
  | x, y => (divisible? x y).map fun (a, b) => .float (a / b)

/-- The quotient of two values rounded down. -/
def floorDiv? : Value → Value → Option Value
  | .int a, .int b => if b = 0 then none else some (.int (Int.fdiv a b))
  | x, y => (divisible? x y).map fun (a, b) => .float (a / b).floor

/-- The remainder of two values, with the sign of the divisor, or a template filled with a
value. -/
def mod? : Value → Value → Option Value
  | .int a, .int b => if b = 0 then none else some (.int (Int.fmod a b))
  | .string template, x => (interpolate? template.toList x).map (.string ·.toByteArray)
  | x, y => (divisible? x y).map fun (a, b) => .float (Fraction.flooredMod a b)

/-- The integer that an operator on the bits of natural numbers gives for two integers. -/
def bitwise (f : Nat → Nat → Nat) (a b : Int) : Int :=
  let size := max (a.natAbs.log2 + 1) (b.natAbs.log2 + 1) + 1
  let bits (n : Int) : Nat := (n % (Nat.pow 2 size : Nat)).toNat
  Int.bmod (f (bits a) (bits b)) (Nat.pow 2 size)

/-- A shift of an integer by a number of places that is not negative. -/
def shift? (limit : Int) (f : Int → Nat → Int) : Value → Value → Option Value
  | .int a, .int n => if 0 ≤ n ∧ n < limit then some (.int (f a n.toNat)) else none
  | _, _ => none

/-- An operator on two integers. -/
def ints? (f : Int → Int → Int) : Value → Value → Option Value
  | .int a, .int b => some (.int (f a b))
  | _, _ => none

/-- The values of two mappings by their names; where both have a value, that of the second
counts. -/
def union (names others : List Text) (values otherValues : List Value) : Value :=
  let pairs := others.zip otherValues
  let fresh := pairs.filter fun (name, _) => !names.any (· = name)
  .mapping (names ++ fresh.map (·.1))
    ((names.zip values).map (fun (name, x) => (Value.lookup? name others otherValues).getD x)
      ++ fresh.map (·.2))

/-- The integer with the bits of two integers, or the union of two mappings. -/
def bitOr? : Value → Value → Option Value
  | .mapping names values, .mapping others otherValues =>
    some (union names others values otherValues)
  | x, y => ints? (bitwise Nat.lor) x y

/-- The result of an operator on two values. -/
def binary? (op : BinaryOp) (x y : Value) : Option Value :=
  match op with
  | .add => add? x y
  | .sub => sub? x y
  | .mul => mul? x y
  | .div => div? x y
  | .floorDiv => floorDiv? x y
  | .mod => mod? x y
  | .bitAnd => ints? (bitwise Nat.land) x y
  | .bitOr => bitOr? x y
  | .bitXor => ints? (bitwise Nat.xor) x y
  | .shiftLeft => shift? 512 (fun a n => a * (Nat.pow 2 n : Nat)) x y
  | .shiftRight => shift? 0x80000000 (fun a n => a >>> n) x y
  | .less => (x.compare? y).map fun o => .bool (o == .lt)
  | .greater => (x.compare? y).map fun o => .bool (o == .gt)
  | .lessEqual => (x.compare? y).map fun o => .bool (o != .gt)
  | .greaterEqual => (x.compare? y).map fun o => .bool (o != .lt)
  | .equal => (x.equal? y).map .bool
  | .notEqual => (x.equal? y).map fun b => .bool (!b)
  | .member => (y.contains? x).map .bool
  | .notMember => (y.contains? x).map fun b => .bool (!b)

/-- The result of an operator on one value. -/
def unary? : UnaryOp → Value → Option Value
  | .plus, .int n => some (.int n)
  | .plus, .float x => some (.float x)
  | .minus, .int n => some (.int (-n))
  | .minus, .float x => some (.float (-x))
  | .complement, .int n => some (.int (-n - 1))
  | .not, x => some (.bool (!x.truth))
  | _, _ => none

/-- The item of a list, a tuple or a string at an index, or the value by a name; a negative index
counts from the end. -/
def index? (x i : Value) : Option Value :=
  let place (size : Nat) : Option Nat :=
    match i with
    | .int n =>
      let n := if n < 0 then n + size else n
      if 0 ≤ n ∧ n < size then some n.toNat else none
    | _ => none
  match x with
  | .string s => (place s.size).bind fun k => (s[k]?).map fun b => .string [b].toByteArray
  | .bytes s => (place s.size).bind fun k => (s[k]?).map fun b => .int b.toNat
  | .mapping names values =>
    match i with
    | .string s => ((names.zip values).find? (·.1.bytes = s.toList)).map (·.2)
    | _ => none
  | x => x.items?.bind fun items => (place items.length).bind fun k => items[k]?

/-! ### Slices -/

/-- A bound of a slice: a number of 32 bits, of which a negative one counts from the end, or what
stands for a bound that is left out. -/
def sliceBound? (size : Nat) (otherwise : Int) : Value → Option Int
  | .none => some otherwise
  | .int n => if Literal.fits 32 n then some (if n < 0 then n + size else n) else none
  | _ => none

/-- The distance between the places of a slice, which is not zero. -/
def sliceStep? : Value → Option Int
  | .none => some 1
  | .int n => if Literal.fits 32 n ∧ n ≠ 0 then some n else none
  | _ => none

/-- The places of a slice of something of a size. -/
def slicePlaces? (size : Nat) (start stop step : Value) : Option (List Nat) :=
  (sliceStep? step).bind fun step =>
    let up := 0 < step
    let clamp (n : Int) : Int :=
      if up then max 0 (min n size) else max (-1) (min n (size - 1))
    (sliceBound? size (if up then 0 else size - 1) start).bind fun first =>
      (sliceBound? size (if up then size else -1) stop).map fun last =>
        let distance := (if up then clamp last - clamp first else clamp first - clamp last).toNat
        let count := (distance + step.natAbs - 1) / step.natAbs
        (List.range count).map fun (k : Nat) => (clamp first + k * step).toNat

/-- The items at some places. -/
def atPlaces {α : Type} (xs : List α) (places : List Nat) : List α :=
  let items := xs.toArray
  places.filterMap (items[·]?)

/-- The items of a list, a tuple or a string from one place to another. -/
def slice? (x start stop step : Value) : Option Value :=
  let places (size : Nat) : Option (List Nat) := slicePlaces? size start stop step
  match x with
  | .string s => (places s.size).map fun ks => .string (atPlaces s.toList ks).toByteArray
  | .bytes s => (places s.size).map fun ks => .bytes (atPlaces s.toList ks).toByteArray
  | .list xs => (places xs.length).map fun ks => .list (atPlaces xs ks)
  | .tuple xs => (places xs.length).map fun ks => .tuple (atPlaces xs ks)
  | _ => none

end Expression

end Assembly

end StackMachine
