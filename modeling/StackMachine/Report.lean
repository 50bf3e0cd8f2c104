import StackMachine.Catalog
import StackMachine.Machine.Snapshot
import StackMachine.Program.Basic
import StackMachine.Text.Grid
import StackMachine.Text.Json

/-!
# Reports

What is printed about a machine, a program and the instruction set: tables, and a JSON
document of a whole snapshot.

## Main definitions

* `Report.state`, `Report.data`, `Report.history`: the tables of a snapshot.
* `Report.snapshot`: the tables of a snapshot, one below the other.
* `Report.document`: a snapshot as JSON.
* `Report.labels`, `Report.opcodes`: the labels of a program, and the instruction set.
-/

namespace StackMachine

namespace Report

/-! ### Tables of a snapshot -/

/-- A row of the state table. -/
def property (name : String) (value : Grid.Cell) : Grid.Band :=
  .row [Grid.word name, value]

/-- The registers of a machine. -/
def state (s : Snapshot) : Grid where
  title := "State"
  body :=
    [property "ip" (Grid.number (Numeral.decimal s.ip)),
     property "sp" (Grid.number (Numeral.decimal s.sp)),
     property "stack" (Grid.word s.stackText),
     property "flags" (Grid.word s.flags.text),
     property "halted" (Grid.word (if s.halted then "true" else "false")),
     property "cycles" (Grid.number (Numeral.decimal s.cycles))]
      ++ (if s.current.isEmpty then [] else [property "last" (Grid.word s.current)])
      ++ (if s.error.isEmpty then [] else [property "error" (Grid.word s.error)])

/-- The number of data cells in a row of the data table. -/
def rowSize : Nat := 8

/-- The row of some data cells from an address on; a row of zeros is left out. -/
def dataRow? (address : Nat) (cells : List Int32) : Option Grid.Band :=
  if cells.all (· = 0) then none
  else
    some (.row (Grid.word (Numeral.hexUpper 4 address)
      :: cells.map fun cell => Grid.number (Numeral.decimal cell.toInt)))

/-- The rows of the data table from an address on, with at most `fuel` rows. -/
def dataRows : Nat → Nat → List Int32 → List Grid.Band
  | 0, _, _ => []
  | _, _, [] => []
  | fuel + 1, address, cells =>
    (dataRow? address (cells.take rowSize)).toList
      ++ dataRows fuel (address + rowSize) (cells.drop rowSize)

/-- The data cells, without the rows that hold only zeros. -/
def data (cells : List Int32) : Grid where
  title := "Data"
  header := ["addr", "+0", "+1", "+2", "+3", "+4", "+5", "+6", "+7"]
  body := dataRows cells.length 0 cells

/-- The stack entries of a history entry, between brackets. -/
def entryStack (e : History.Entry) : String :=
  Numeral.listed ((e.stack.getD []).map Int32.toInt)

/-- The history, oldest entry first. -/
def history (entries : List History.Entry) : Grid where
  title := "History"
  header := ["ip", "instruction", "stack", "flags"]
  body := entries.map fun e =>
    .row [Grid.number (Numeral.decimal e.ip), Grid.word e.command, Grid.word (entryStack e),
      Grid.word e.flags.text]

/-- The tables of a snapshot; the data table only if it is asked for, the history only if there is
one. -/
def snapshot (s : Snapshot) (dump : Bool) : Text :=
  (state s).text.line
    ++ (if dump then (data s.data).text.line else [])
    ++ (if s.history.isEmpty then [] else (history s.history).text.line)

/-! ### A snapshot as JSON -/

/-- A list of signed words. -/
def signedList (values : List Int32) : Json :=
  .list (values.map fun value => .int value.toInt)

/-- The flags as an object. -/
def flagsDocument (f : Flags) : Json :=
  .object [("zero", .bool f.zero), ("negative", .bool f.negative), ("overflow", .bool f.overflow)]

/-- A history entry as an object. -/
def entryDocument (e : History.Entry) : Json :=
  .object
    [("command", .text e.command),
     ("programCounter", .int e.ip),
     ("stack", (e.stack.map signedList).getD .null),
     ("flags", flagsDocument e.flags)]

/-- A snapshot as an object. -/
def document (s : Snapshot) : Json :=
  .object <|
    [("pc", .int s.ip),
     ("stack", signedList s.stack),
     ("data_memory", signedList s.data),
     ("instruction_memory",
       (s.image.map fun words => Json.list (words.map fun word => .int word.toNat)).getD .null),
     ("flags", flagsDocument s.flags),
     ("halted", .bool s.halted)]
      ++ (if s.error.isEmpty then [] else [("error", .text s.error)])
      ++ [("cycles", .int s.cycles), ("current_command", .text s.current)]
      ++ (if s.history.isEmpty then []
          else [("history", .list (s.history.map entryDocument))])

/-- A snapshot as indented JSON. -/
def documentText (s : Snapshot) : Text :=
  (document s).render.line

/-! ### Labels and operations -/

/-- The labels of a program, by address. -/
def labels (p : Program) : Grid where
  title := "Labels"
  header := ["label", "address"]
  body := p.labelsInOrder.map fun (name, address) =>
    .row [Grid.word name, Grid.word (Numeral.hexUpper 4 address)]

/-- The row of an operation. -/
def opcodeRow (op : Opcode) : Grid.Band :=
  .row
    [Grid.number op.opClass.name,
     Grid.word ("0x" ++ Numeral.hexUpper 2 op.tag.toNat),
     Grid.word op.mnemonic,
     Grid.word (if op.takesOperand then "yes" else ""),
     Grid.word op.description]

/-- The instruction set, with a rule between two classes. -/
def opcodes : Grid where
  title := "Instruction word: [24-bit operand][8-bit opcode]"
  header := ["class", "opcode", "mnemonic", "operand", "description"]
  body :=
    (OpClass.all.map fun k =>
      (Catalog.entries.filter (·.opClass = k)).map opcodeRow).intersperse [.rule] |>.flatten

end Report

end StackMachine
