import StackMachine.Text.Display

/-!
# Bordered tables

A table has a title, an optional header and rows. A column is as wide as the longest line
of its cells. A column of numbers is right aligned and every other column left aligned; a
cell of the header is aligned as its column. Cells that a row lacks are blank, and a row is
as high as its highest cell.

## Main definitions

* `Grid`: a table.
* `Grid.text`: the table with its borders.
-/

namespace StackMachine

/-- A cell of a table. -/
structure Grid.Cell where
  /-- What the cell shows. -/
  text : Text
  /-- Whether it shows a number. -/
  numeric : Bool := false
  deriving DecidableEq

/-- A part of the body of a table. -/
inductive Grid.Band where
  /-- A row of cells. -/
  | row (cells : List Grid.Cell)
  /-- A rule between two rows. -/
  | rule
  deriving DecidableEq

/-- A table. -/
structure Grid where
  /-- The title. -/
  title : Text
  /-- The names of the columns; a table without names has no header. -/
  header : List Text := []
  /-- The rows and the rules between them. -/
  body : List Grid.Band
  deriving DecidableEq

namespace Grid

/-- A cell with a text. -/
def word (text : Text) : Cell := { text := text }

/-- A cell with a number. -/
def number (text : Text) : Cell := { text := text, numeric := true }

/-- The capital form of a column name. -/
def heading (name : Text) : Text :=
  name.map fun
    | .scalar c => .scalar c.toUpper
    | .stray b => .stray b

/-- The lines of a cell. -/
def Cell.lines (c : Cell) : List Text :=
  Display.lines (Display.tidy c.text)

/-- The width of a cell. -/
def Cell.width (c : Cell) : Nat :=
  Display.longest (Display.tidy c.text)

/-- The rows of a table. -/
def rows (g : Grid) : List (List Cell) :=
  g.body.filterMap fun
    | .row cells => some cells
    | .rule => none

/-- The number of columns. -/
def columns (g : Grid) : Nat :=
  ((g.header.length :: g.rows.map List.length).max?).getD 0

/-- The cells of a column. -/
def column (g : Grid) (k : Nat) : List Cell :=
  g.rows.filterMap (·[k]?)

/-- How a column is laid out. -/
structure Column where
  /-- The width. -/
  width : Nat
  /-- Whether it holds numbers only. -/
  numeric : Bool
  deriving DecidableEq

/-- How a column of a table is laid out. -/
def columnAt (g : Grid) (k : Nat) : Column :=
  let header := (g.header[k]?).getD []
  let cells := g.column k
  { width := ((Display.width header :: cells.map Cell.width).max?).getD 0
    numeric := cells.all (·.numeric) }

/-- How the columns of a table are laid out. -/
def layout (g : Grid) : List Column :=
  (List.range g.columns).map g.columnAt

/-- A text without the spaces at the side where a column fills it up. -/
def Column.trimmed (c : Column) (text : Text) : Text :=
  if c.numeric then text.dropWhile (· = .scalar ' ')
  else (text.reverse.dropWhile (· = .scalar ' ')).reverse

/-- A text in the width and alignment of a column. -/
def Column.aligned (c : Column) (text : Text) : Text :=
  let trimmed := c.trimmed text
  let blanks : Text := List.replicate (c.width - Display.width trimmed) (.scalar ' ')
  if c.numeric then blanks ++ trimmed else trimmed ++ blanks

/-- A line of texts between bars, one text per column. -/
def line : List Column → List Text → Text
  | [], _ => "|"
  | c :: rest, texts => "| " ++ c.aligned (texts.head?.getD []) ++ " " ++ line rest texts.tail

/-- A run of dashes. -/
def dashes (n : Nat) : Text :=
  List.replicate n (.scalar '-')

/-- A rule with joints at the columns. -/
def rule : List Column → Text
  | [] => "+"
  | c :: rest => "+" ++ dashes (c.width + 2) ++ rule rest

/-- The number of glyphs between the outer borders. -/
def inner (columns : List Column) : Nat :=
  (rule columns).length - 2

/-- The rule above the title. -/
def titleRule (columns : List Column) : Text :=
  "+" ++ dashes (inner columns) ++ "+"

/-- The line of the title. -/
def titleLine (columns : List Column) (title : Text) : Text :=
  "| " ++ title.padRight (inner columns - 2) ++ " |"

/-- The lines of the header. -/
def headerLines (columns : List Column) (header : List Text) : List Text :=
  if header.isEmpty then [] else [rule columns, line columns (header.map heading)]

/-- The lines of a row. -/
def rowLines (columns : List Column) (cells : List Cell) : List Text :=
  let height := ((cells.map (·.lines.length)).max?).getD 0
  (List.range height).map fun k =>
    line columns (cells.map fun cell => (cell.lines[k]?).getD [])

/-- The lines of a part of the body. -/
def bandLines (columns : List Column) : Band → List Text
  | .row cells => rowLines columns cells
  | .rule => [rule columns]

/-- The lines of a table. -/
def lines (g : Grid) : List Text :=
  let columns := g.layout
  [titleRule columns, titleLine columns g.title] ++ headerLines columns g.header
    ++ [rule columns] ++ g.body.flatMap (bandLines columns) ++ [rule columns]

/-- The table with its borders. The last line has no line feed. -/
def text (g : Grid) : Text :=
  Text.join "\n" g.lines

end Grid

end StackMachine
