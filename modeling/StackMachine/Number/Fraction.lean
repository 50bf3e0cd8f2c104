/-!
# Exact values of floating-point numbers

The magnitude of a finite floating-point number is a fraction of two natural numbers, and
every fraction has a nearest floating-point number. Numbers are converted, compared and
divided through their fractions, so that every result is rounded once.

## Main definitions

* `Fraction`: a quotient of two natural numbers.
* `Fraction.ofFloat`: the magnitude of a floating-point number.
* `Fraction.nearest?`: the floating-point number nearest to a fraction.
-/

namespace StackMachine

/-- A quotient of two natural numbers. -/
structure Fraction where
  /-- The numerator. -/
  num : Nat
  /-- The denominator, which is not zero. -/
  den : Nat := 1
  deriving DecidableEq

namespace Fraction

/-- The quotient of two natural numbers rounded to the nearest one; of two that are equally near
the even one is taken. -/
def round (f : Fraction) : Nat :=
  let quotient := f.num / f.den
  let remainder := f.num % f.den
  if f.den < 2 * remainder ∨ f.den = 2 * remainder ∧ quotient % 2 = 1 then quotient + 1
  else quotient

/-- A fraction times a power of a base; the exponent may be negative. -/
def scale (base : Nat) (exponent : Int) (f : Fraction) : Fraction :=
  { num := f.num * Nat.pow base exponent.toNat, den := f.den * Nat.pow base (-exponent).toNat }

/-- Whether a fraction is at least one. -/
def atLeastOne (f : Fraction) : Bool :=
  f.den ≤ f.num

/-- The largest exponent whose power of two does not exceed a fraction that is not zero. -/
def binaryExponent (f : Fraction) : Int :=
  let estimate : Int := (f.num.log2 : Int) - f.den.log2
  if (f.scale 2 (-estimate)).atLeastOne then estimate else estimate - 1

/-- The largest exponent whose power of ten does not exceed a fraction that is not zero. -/
def decimalExponent (f : Fraction) : Int :=
  let estimate : Int := ((Nat.toDigits 10 f.num).length : Int) - (Nat.toDigits 10 f.den).length
  if (f.scale 10 (-estimate)).atLeastOne then estimate else estimate - 1

/-! ### Floating-point numbers -/

/-- Whether a floating-point number has a minus sign. -/
def isNegative (x : Float) : Bool :=
  0x8000000000000000 ≤ x.toBits.toNat

/-- Whether a floating-point number is a number and not infinite. -/
def isFinite (x : Float) : Bool :=
  !x.isNaN && !x.isInf

/-- The magnitude of a finite floating-point number. -/
def ofFloat (x : Float) : Fraction :=
  let bits : Nat := x.toBits.toNat
  let fraction : Nat := bits % 0x10000000000000
  let field : Nat := bits / 0x10000000000000 % 0x800
  if field = 0 then scale 2 (-1074) { num := fraction }
  else scale 2 ((field : Int) - 1075) { num := fraction + 0x10000000000000 }

/-- The bit pattern of the floating-point number nearest to a fraction, with the exponent running
on beyond the largest number. -/
def nearestBits (f : Fraction) : Nat :=
  if f.num = 0 then 0
  else
    let exponent := max (f.binaryExponent - 52) (-1074)
    let mantissa := (f.scale 2 (-exponent)).round
    if mantissa < 0x10000000000000 then mantissa
    else (exponent + 1075).toNat * 0x10000000000000 + (mantissa - 0x10000000000000)

/-- The floating-point number nearest to a fraction, unless the fraction is too large. -/
def nearest? (f : Fraction) : Option Float :=
  if f.nearestBits < 0x7FF0000000000000 then some (Float.ofBits (UInt64.ofNat f.nearestBits))
  else none

/-- A floating-point number with a minus sign or without. -/
def withSign (negative : Bool) (x : Float) : Float :=
  if negative then -x else x

/-- The floating-point number nearest to an integer, unless the integer is too large. -/
def floatOfInt? (n : Int) : Option Float :=
  ({ num := n.natAbs } : Fraction).nearest?.map (withSign (n < 0))

/-- A finite floating-point number without its fraction. -/
def truncate (x : Float) : Int :=
  let magnitude : Int := (ofFloat x).num / (ofFloat x).den
  if isNegative x then -magnitude else magnitude

/-- The order of an integer and a finite floating-point number. -/
def compareInt (n : Int) (x : Float) : Ordering :=
  let f := ofFloat x
  let numerator : Int := if isNegative x then -f.num else f.num
  compare (n * f.den) numerator

/-- The remainder of two fractions. -/
def remainder (f g : Fraction) : Fraction :=
  { num := (f.num * g.den) % (g.num * f.den), den := f.den * g.den }

/-- The remainder of two floating-point numbers, with the sign of the dividend. -/
def truncatedMod (x y : Float) : Float :=
  if x.isNaN || y.isNaN || x.isInf then 0.0 / 0.0
  else if y.isInf then x
  else withSign (isNegative x) (((ofFloat x).remainder (ofFloat y)).nearest?.getD 0.0)

/-- The remainder of two floating-point numbers, moved to the side of the divisor. -/
def flooredMod (x y : Float) : Float :=
  let z := truncatedMod x y
  if (x < 0) != (y < 0) && z != 0 then z + y else z

end Fraction

end StackMachine
