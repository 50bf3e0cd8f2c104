import StackMachine.Text.Width

/-!
# Text on a terminal

What a text looks like on a terminal. Tabs become spaces, a carriage return goes back to
the start of its line so that what follows overwrites it, and escape sequences take no
room, not even one that never ends.

## Main definitions

* `Display.tidy`: a text without tabs and carriage returns.
* `Display.Place`: where a text stands with respect to escape sequences.
* `Display.width`, `Display.longest`: the columns that a line takes, and the longest line of a text.
* `Display.lines`: the lines of a text.
-/

namespace StackMachine

namespace Display

/-! ### Tabs and carriage returns -/

/-- A text with four spaces for every tab. -/
def expandTabs (t : Text) : Text :=
  t.flatMap fun g => if g = .scalar '\t' then List.replicate 4 (.scalar ' ') else [g]

/-- A text without the carriage returns that stand before a line feed. -/
def joinReturns : Text → Text
  | .scalar '\r' :: .scalar '\n' :: rest => .scalar '\n' :: joinReturns rest
  | g :: rest => g :: joinReturns rest
  | [] => []

/-- A line whose parts behind a carriage return overwrite the line from its start. -/
def overwritten (line : Text) : Text :=
  (line.split (· = .scalar '\r')).foldl (fun shown part => part ++ shown.drop part.length) []

/-- A text without tabs and carriage returns. -/
def tidy (t : Text) : Text :=
  Text.join "\n" (((joinReturns (expandTabs t)).split (· = .scalar '\n')).map overwritten)

/-! ### Escape sequences -/

/-- Where a text stands with respect to escape sequences. A style ends at the letter `m`, a command
at a backslash, and a link, the command with the number eight, at an escape character with a
backslash or at a bell. A sequence of another kind goes on until a bracket makes it a style or a
command. -/
inductive Place where
  /-- Outside every sequence. -/
  | outside
  /-- Right behind the escape character that opens a sequence. -/
  | opened
  /-- In a sequence of a kind that is not known yet. -/
  | unknown
  /-- In a sequence that sets a style. -/
  | style
  /-- In a sequence that gives a command. -/
  | command
  /-- Right behind the bracket at the start of a command, where its number stands. -/
  | numbered
  /-- Right behind the digit eight of a command, which may turn out to be a link. -/
  | eighth
  /-- In a link. -/
  | link
  /-- In a link, right behind an escape character. -/
  | linkEscape
  deriving DecidableEq

namespace Place

/-- The character that opens a sequence. -/
def escape : Glyph := .scalar '\x1b'

/-- The character that rings a bell. -/
def bell : Glyph := .scalar '\x07'

/-- The place behind a glyph of a command. -/
def ofCommand (g : Glyph) : Place :=
  if g = .scalar '\\' then outside else command

/-- The place behind a glyph of a link. -/
def ofLink (g : Glyph) : Place :=
  if g = bell then outside else if g = escape then linkEscape else link

/-- The place behind one more glyph. -/
def next (p : Place) (g : Glyph) : Place :=
  match p with
  | outside => if g = escape then opened else outside
  | opened =>
    if g = .scalar '[' then style else if g = .scalar ']' then numbered else unknown
  | unknown =>
    if g = .scalar '[' then style else if g = .scalar ']' then command else unknown
  | style => if g = .scalar 'm' then outside else style
  | command => ofCommand g
  | numbered => if g = .scalar '8' then eighth else ofCommand g
  | eighth => if g = .scalar ';' then link else ofCommand g
  | link => ofLink g
  | linkEscape => if g = .scalar '\\' then outside else ofLink g

/-- The columns that a glyph takes at a place. -/
def widthOf (p : Place) (g : Glyph) : Nat :=
  if p = outside ∧ p.next g = outside then Width.ofChar g.toChar else 0

end Place

/-! ### Lines -/

/-- The columns that the rest of a line takes. -/
def widthFrom (p : Place) : Text → Nat
  | [] => 0
  | g :: rest => p.widthOf g + widthFrom (p.next g) rest

/-- The columns that a line takes. -/
def width (line : Text) : Nat :=
  widthFrom .outside line

/-- The columns of the longest line of the rest of a text, whose first line takes `current`
columns already. A line feed inside a sequence ends no line. -/
def longestFrom (p : Place) (current : Nat) : Text → Nat
  | [] => current
  | g :: rest =>
    if p = .outside ∧ g = .scalar '\n' then max current (longestFrom p 0 rest)
    else longestFrom (p.next g) (current + p.widthOf g) rest

/-- The columns of the longest line of a text. -/
def longest (t : Text) : Nat :=
  longestFrom .outside 0 t

/-- The lines of a text. -/
def lines (t : Text) : List Text :=
  t.split (· = .scalar '\n')

end Display

end StackMachine
