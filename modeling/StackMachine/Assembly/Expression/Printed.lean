import StackMachine.Assembly.Expression.Value
import StackMachine.Number.Decimal
import StackMachine.Text.Quoted

/-!
# Texts of values

Every value has a printed form, and a string can be a template that takes values: a
percent sign and a letter show the next value in the form that the letter selects, and with
a name in parentheses between them, the value that a mapping has by that name.

## Main definitions

* `Expression.Value.printed`: the printed form of a value.
* `Expression.interpolate?`: a template filled with values.
-/

namespace StackMachine

namespace Assembly

namespace Expression

/-- The bytes of a string that is written out. -/
def bytesOf (s : String) : List UInt8 :=
  Text.bytes (Text.ofString s)

/-! ### Printed values -/

mutual

/-- The printed form of a value. -/
def Value.printed : Value → List UInt8
  | .none => bytesOf "None"
  | .bool b => bytesOf (if b then "True" else "False")
  | .int n => bytesOf (Numeral.decimal n)
  | .float x => bytesOf (Decimal.general 'e' x)
  | .string s => bytesOf (Quoted.text (Text.ofBytes s.toList))
  | .bytes s => bytesOf ("b" ++ Quoted.text (Text.ofBytes s.toList))
  | .list items => bytesOf "[" ++ printedItems items ++ bytesOf "]"
  | .tuple items =>
    bytesOf "(" ++ printedItems items ++ bytesOf (if items.length = 1 then ",)" else ")")
  | .mapping names values =>
    bytesOf "\x7b" ++ printedEntries names values ++ bytesOf "\x7d"
  | .builtin name => bytesOf "<built-in function " ++ name.bytes ++ bytesOf ">"
  | .function .. => bytesOf "<function lambda>"

/-- The printed forms of some values with commas between them. -/
def printedItems : List Value → List UInt8
  | [] => []
  | x :: rest => x.printed ++ printedRest rest

/-- The printed forms of some values with a comma before each. -/
def printedRest : List Value → List UInt8
  | [] => []
  | x :: rest => bytesOf ", " ++ x.printed ++ printedRest rest

/-- The printed forms of some names and values with commas between them. -/
def printedEntries : List Text → List Value → List UInt8
  | name :: names, x :: rest =>
    bytesOf (Quoted.text name ++ ": ") ++ x.printed
      ++ bytesOf (if rest.isEmpty then "" else ", ") ++ printedEntries names rest
  | _, _ => []

end

/-! ### Templates -/

/-- The integer that a number stands for, without its fraction. -/
def integral? : Value → Option Int
  | .int n => some n
  | .float x => if Fraction.isFinite x then some (Fraction.truncate x) else none
  | _ => none

/-- The digits of an integer in a base. -/
def inBase (base : Nat) (n : Int) : String :=
  String.ofList (Numeral.padded base 0 n)

/-- The floating-point number that a number stands for; a large integer becomes infinite. -/
def floating? : Value → Option Float
  | .int n => some ((Fraction.floatOfInt? n).getD (Fraction.withSign (n < 0) (1.0 / 0.0)))
  | .float x => some x
  | _ => none

/-- The character with a code, or the replacement character for a surrogate; there is none for an
integer that is no code. -/
def characterOf? : Value → Option Char
  | .int n =>
    if 0 ≤ n ∧ n ≤ 0x10FFFF then
      some (if n.toNat.isValidChar then Char.ofNat n.toNat else '\uFFFD')
    else none
  | .string s =>
    match Text.ofBytes s.toList with
    | [g] => some g.toChar
    | _ => none
  | _ => none

/-- A value in the form that a letter selects, unless the form does not suit the value. The letter
`F` has no form of its own and shows itself. -/
def converted? (letter : Char) (x : Value) : Option (List UInt8) :=
  match letter with
  | 's' =>
    match x with
    | .string s => some s.toList
    | x => some x.printed
  | 'r' => some x.printed
  | 'd' | 'i' => (integral? x).map fun n => bytesOf (Numeral.decimal n)
  | 'o' => (integral? x).map fun n => bytesOf (inBase 8 n)
  | 'x' => (integral? x).map fun n => bytesOf (inBase 16 n)
  | 'X' => (integral? x).map fun n => bytesOf ((inBase 16 n).map Char.toUpper)
  | 'e' => (floating? x).map fun f => bytesOf (Decimal.scientific 'e' f)
  | 'E' => (floating? x).map fun f => bytesOf (Decimal.scientific 'E' f)
  | 'f' => (floating? x).map fun f => bytesOf (Decimal.fixed f)
  | 'F' =>
    (floating? x).map fun f => bytesOf (if Fraction.isFinite f then "%F" else Decimal.fixed f)
  | 'g' => (floating? x).map fun f => bytesOf (Decimal.general 'e' f)
  | 'G' => (floating? x).map fun f => bytesOf (Decimal.general 'E' f)
  | 'c' => (characterOf? x).map String.utf8EncodeChar
  | _ => none

/-- The name in parentheses behind the percent sign of a template, if there is one, and what stands
behind it. A name without its closing parenthesis is an error. -/
def templateName? : List UInt8 → Option (Option Text × List UInt8)
  | 0x28 :: rest =>
    match rest.dropWhile (· ≠ 0x29) with
    | [] => none
    | _ :: behind => some (some (Text.ofBytes (rest.takeWhile (· ≠ 0x29))), behind)
  | rest => some (none, rest)

/-- A template filled with a value or its items, of which `args` are left; `seen` holds the bytes
before, last first. All items are used, unless the value is a mapping. -/
def filled? (x : Value) : Nat → List Value → List UInt8 → List UInt8 → Option (List UInt8)
  | 0, _, _, _ => none
  | _, args, seen, [] =>
    let isMapping := match x with
      | .mapping .. => true
      | _ => false
    if args.isEmpty || isMapping then some seen.reverse else none
  | fuel + 1, args, seen, b :: rest =>
    if b ≠ 0x25 then filled? x fuel args (b :: seen) rest
    else if rest.head? = some 0x25 then filled? x fuel args (0x25 :: seen) rest.tail
    else
      (templateName? rest).bind fun (name, rest) =>
        (match name with
          | some name => x.named? name
          | none => args.head?).bind fun value =>
            match rest with
            | [] => none
            | letter :: rest =>
              (if letter = 0x25 then some [0x25]
                else converted? (Char.ofNat letter.toNat) value).bind fun t =>
                  filled? x fuel args.tail (t.reverse ++ seen) rest

/-- A template filled with a value, or with the items of a tuple. -/
def interpolate? (template : List UInt8) (x : Value) : Option (List UInt8) :=
  let args :=
    match x with
    | .tuple items => items
    | x => [x]
  filled? x (template.length + 1) args [] template

end Expression

end Assembly

end StackMachine
