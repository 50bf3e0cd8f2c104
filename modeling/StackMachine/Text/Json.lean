import StackMachine.Text.Numeral

/-!
# Indented JSON

JSON values and their text with one item per line, two spaces of indentation per level,
and nothing between the brackets of an empty list. The fields of an object keep their
order.

## Main definitions

* `Json`: a value.
* `Json.text`: its text, without a line feed at the end.
-/

namespace StackMachine

/-- A JSON value without fractions. -/
inductive Json where
  | null
  | bool (b : Bool)
  | int (n : Int)
  | text (t : Text)
  | list (items : List Json)
  | object (fields : List (String × Json))

namespace Json

/-! ### Strings -/

/-- Whether a character is written by its code: control characters, and those that have a meaning
in markup or end a line in scripts. -/
def isCoded (c : Char) : Bool :=
  c.toNat < 0x20 || c = '<' || c = '>' || c = '&' || c = '\u2028' || c = '\u2029'

/-- The letter that stands for a character behind a backslash. -/
def letter? (c : Char) : Option Char :=
  if c = '"' then some '"'
  else if c = '\\' then some '\\'
  else if c = '\x08' then some 'b'
  else if c = '\x0c' then some 'f'
  else if c = '\n' then some 'n'
  else if c = '\r' then some 'r'
  else if c = '\t' then some 't'
  else none

/-- The escaped form of a character. -/
def escaped (c : Char) : Text :=
  match letter? c with
  | some l => [.scalar '\\', .scalar l]
  | none =>
    if isCoded c then Text.ofString ("\\u" ++ Numeral.hex 4 c.toNat) else [.scalar c]

/-- The escaped form of a glyph; a stray byte is written as the code of the replacement
character. -/
def escapedGlyph : Glyph → Text
  | .scalar c => escaped c
  | .stray _ => "\\ufffd"

/-- A text between double quotes. -/
def quoted (t : Text) : Text :=
  "\"" ++ t.flatMap escapedGlyph ++ "\""

/-! ### Values -/

/-- The start of a line at a depth. -/
def margin (depth : Nat) : Text :=
  .scalar '\n' :: List.replicate (2 * depth) (.scalar ' ')

mutual

/-- The text of a value at a depth. -/
def write (depth : Nat) : Json → Text
  | null => "null"
  | bool b => if b then "true" else "false"
  | int n => Numeral.decimal n
  | text t => quoted t
  | list [] => "[]"
  | list (first :: rest) =>
    "[" ++ margin (depth + 1) ++ write (depth + 1) first ++ writeItems (depth + 1) rest
      ++ margin depth ++ "]"
  | object [] => "\x7b\x7d"
  | object ((name, first) :: rest) =>
    "\x7b" ++ margin (depth + 1) ++ quoted name ++ ": " ++ write (depth + 1) first
      ++ writeFields (depth + 1) rest ++ margin depth ++ "\x7d"

/-- The texts of the items of a list behind the first. -/
def writeItems (depth : Nat) : List Json → Text
  | [] => []
  | item :: rest => "," ++ margin depth ++ write depth item ++ writeItems depth rest

/-- The texts of the fields of an object behind the first. -/
def writeFields (depth : Nat) : List (String × Json) → Text
  | [] => []
  | (name, value) :: rest =>
    "," ++ margin depth ++ quoted name ++ ": " ++ write depth value ++ writeFields depth rest

end

/-- The text of a value. -/
def render (j : Json) : Text :=
  j.write 0

end Json

end StackMachine
