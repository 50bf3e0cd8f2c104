import StackMachine.Text.Glyph

/-!
# Lines

A text is read line by line. A line ends at a line feed or at the end of the text,
one carriage return before that end is not part of it, and an empty last line is not
counted. A line that does not fit the reading limit ends the reading.

## Main definitions

* `Lines`: the lines that could be read, and whether a line was too long.
* `Lines.ofText`: reading a text.
-/

namespace StackMachine

/-- The result of reading a text line by line. -/
structure Lines where
  /-- The lines before the first that is too long. -/
  lines : List Text
  /-- Whether reading stopped at a line that is too long. -/
  overlong : Bool
  deriving DecidableEq

namespace Lines

/-- The number of bytes that a line must stay below, its carriage return included and its line
feed not. -/
def limit : Nat := 65536

/-- Whether a line can be read. -/
def fits (line : Text) : Bool :=
  line.byteSize < limit

/-- The line without one carriage return at its end. -/
def dropReturn (line : Text) : Text :=
  if line.getLast? = some (.scalar '\r') then line.dropLast else line

/-- The raw lines of a text, an empty last one left out. -/
def raw (t : Text) : List Text :=
  let all := t.split (· = .scalar '\n')
  if all.getLast? = some [] then all.dropLast else all

/-- Reads a text line by line. -/
def ofText (t : Text) : Lines where
  lines := ((raw t).takeWhile fits).map dropReturn
  overlong := !(raw t).all fits

end Lines

end StackMachine
