import StackMachine.Number.Fraction
import StackMachine.Text.Numeral

/-!
# Floating-point numbers in decimal

The text of a finite floating-point number: with a fixed number of places, in scientific
notation with a fixed number of places, and in the general form, which has the fewest
digits that read back as the number and is scientific for very small and large numbers.

## Main definitions

* `Decimal.shortest`: the fewest digits that read back.
* `Decimal.fixed`, `Decimal.scientific`, `Decimal.general`: the three forms.
-/

namespace StackMachine

/-- Decimal digits with a point: the digits are those of a number below one, times a power of
ten. -/
structure Decimal where
  /-- The digits behind the point. -/
  digits : List Char
  /-- The exponent of the power of ten. -/
  point : Int
  deriving DecidableEq

namespace Decimal

/-! ### Digits of a fraction -/

/-- The number of places that fixed forms have. -/
def places : Nat := 6

/-- A whole number of units of a power of ten, without zeros at its end. -/
def ofUnits (units : Nat) (exponent : Int) : Decimal :=
  let digits := Nat.toDigits 10 units
  { digits := (digits.reverse.dropWhile (· = '0')).reverse
    point := exponent + digits.length }

/-- Whether a number of units of a power of ten reads back as the number that `f` stands for. -/
def readsBack (f : Fraction) (units : Nat) (exponent : Int) : Bool :=
  (({ num := units } : Fraction).scale 10 exponent).nearestBits = f.nearestBits

/-- The decimal of `count` digits that is nearest to a fraction and reads back, if there is one:
the two neighbours of the fraction among these decimals are tried. -/
def withDigits? (f : Fraction) (count : Nat) : Option Decimal :=
  let exponent := f.decimalExponent - (count - 1 : Nat)
  let scaled := f.scale 10 (-exponent)
  let below := scaled.num / scaled.den
  let near := scaled.round
  let far := if near = below then below + 1 else below
  if readsBack f near exponent then some (ofUnits near exponent)
  else if readsBack f far exponent then some (ofUnits far exponent)
  else none

/-- The decimal with the fewest digits that reads back as a fraction. -/
def shortest (f : Fraction) : Decimal :=
  if f.num = 0 then { digits := [], point := 0 }
  else
    ((List.range 17).findSome? fun k => withDigits? f (k + 1)).getD { digits := [], point := 0 }

/-- The decimal of `count` digits that is nearest to a fraction. -/
def rounded (f : Fraction) (count : Nat) : Decimal :=
  if f.num = 0 then { digits := [], point := 0 }
  else
    let exponent := f.decimalExponent - (count - 1 : Nat)
    ofUnits (f.scale 10 (-exponent)).round exponent

/-! ### Text of digits -/

/-- Digits filled with zeros at the end. -/
def filled (count : Nat) (digits : List Char) : List Char :=
  digits.take count ++ List.replicate (count - digits.length) '0'

/-- A fraction part behind its point. -/
def behindPoint (digits : List Char) : List Char :=
  if digits.isEmpty then [] else '.' :: digits

/-- An exponent behind its mark: a sign and at least two digits. -/
def exponentText (mark : Char) (exponent : Int) : List Char :=
  [mark, if exponent < 0 then '-' else '+'] ++ Numeral.padZeros 2 (Nat.toDigits 10 exponent.natAbs)

/-- One digit, a point, and `count` digits times a power of ten. -/
def exponentForm (mark : Char) (count : Nat) (d : Decimal) : List Char :=
  let exponent := if d.digits.isEmpty then 0 else d.point - 1
  filled 1 d.digits ++ behindPoint (filled count d.digits.tail) ++ exponentText mark exponent

/-- The digits around a point with `count` places behind it. -/
def positionalForm (count : Nat) (d : Decimal) : List Char :=
  let whole := if d.point ≤ 0 then ['0'] else filled d.point.toNat d.digits
  let leading := List.replicate (-d.point).toNat '0'
  whole ++ behindPoint (filled count (leading ++ d.digits.drop d.point.toNat))

/-! ### Forms of a number -/

/-- The text of a number: a text for its magnitude behind its sign, or a word for what is no
finite number. -/
def signed (x : Float) (magnitude : Fraction → List Char) : String :=
  if x.isNaN then "nan"
  else if x.isInf then (if x < 0 then "-inf" else "+inf")
  else
    let body := magnitude (Fraction.ofFloat x)
    String.ofList (if Fraction.isNegative x then '-' :: body else body)

/-- A number with six places. -/
def fixed (x : Float) : String :=
  signed x fun f =>
    let units := (f.scale 10 places).round
    let digits := Numeral.padZeros (places + 1) (Nat.toDigits 10 units)
    positionalForm places { digits := digits, point := (digits.length : Int) - places }

/-- A number in scientific notation with six places. -/
def scientific (mark : Char) (x : Float) : String :=
  signed x fun f => exponentForm mark places (rounded f (places + 1))

/-- A number with the fewest digits that read back. It is scientific below a ten-thousandth and
from a million on, and otherwise has a point. -/
def general (mark : Char) (x : Float) : String :=
  signed x fun f =>
    let d := shortest f
    if d.point < -3 ∨ 6 < d.point then exponentForm mark (d.digits.length - 1) d
    else
      let count := ((d.digits.length : Int) - d.point).toNat
      if count = 0 then positionalForm 1 d else positionalForm count d

end Decimal

end StackMachine
