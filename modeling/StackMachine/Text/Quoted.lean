import StackMachine.Text.Numeral
import StackMachine.Text.Printable

/-!
# Quoted text

Text between quotes, as error reports and log lines show it. Quotes and backslashes
are escaped, common control characters have a letter, and every other character that is
not printable is written by its code.

## Main definitions

* `Quoted.glyph`: the escaped form of one glyph.
* `Quoted.text`: a text between double quotes.
* `Quoted.character`: a character between single quotes.
-/

namespace StackMachine

namespace Quoted

/-- The letter that stands for a control character behind a backslash. -/
def letter? (c : Char) : Option Char :=
  if c = '\x07' then some 'a'
  else if c = '\x08' then some 'b'
  else if c = '\x0c' then some 'f'
  else if c = '\n' then some 'n'
  else if c = '\r' then some 'r'
  else if c = '\t' then some 't'
  else if c = '\x0b' then some 'v'
  else none

/-- How text is quoted. -/
structure Style where
  /-- The quote, which is escaped inside the text. -/
  quote : Char := '"'
  /-- Whether every character outside ASCII is written by its code. -/
  ascii : Bool := false
  deriving DecidableEq

/-- Whether a style shows a character as it is. -/
def Style.shows (s : Style) (c : Char) : Bool :=
  Printable.contains c && (!s.ascii || c.toNat < 0x80)

/-- The escaped form of a glyph. -/
def glyph (s : Style) : Glyph → String
  | .stray b => "\\x" ++ Numeral.hex 2 b.toNat
  | .scalar c =>
    if c = s.quote ∨ c = '\\' then String.ofList ['\\', c]
    else if s.shows c then String.ofList [c]
    else
      match letter? c with
      | some l => String.ofList ['\\', l]
      | none =>
        if c.toNat < 0x80 then "\\x" ++ Numeral.hex 2 c.toNat
        else if c.toNat < 0x10000 then "\\u" ++ Numeral.hex 4 c.toNat
        else "\\U" ++ Numeral.hex 8 c.toNat

/-- A text between the quotes of a style. -/
def textIn (s : Style) (t : Text) : String :=
  String.ofList [s.quote] ++ String.join (t.map (glyph s)) ++ String.ofList [s.quote]

/-- A text between double quotes. -/
def text (t : Text) : String :=
  textIn {} t

/-- A character between single quotes. -/
def character (ascii : Bool) (c : Char) : String :=
  textIn { quote := '\'', ascii := ascii } [.scalar c]

end Quoted

end StackMachine
