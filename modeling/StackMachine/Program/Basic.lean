import StackMachine.Instr

/-!
# Programs

A program is a list of statements, each an instruction with its address and its source,
and a table of labels. Statements are in the order of their addresses, which may skip
some.

## Main definitions

* `Statement`, `Program`: the parts of a program.
* `Program.ofInstrs`: a program without source.
* `Program.at?`: the statement at an address.
* `Program.image`: the instruction words.
* `Program.labelsInOrder`: the labels by address and name.
-/

namespace StackMachine

/-- An instruction with its place and its source. -/
structure Statement where
  /-- The source line, or zero if there is none. -/
  line : Int := 0
  /-- The address. -/
  ip : Int
  /-- The source words, after substitution of equates. -/
  words : List Text := []
  /-- The instruction. -/
  instr : Instr
  /-- The label that the operand stands for, if it was written as one. -/
  link : Option Text := none
  deriving DecidableEq

/-- A program: statements and labels. -/
structure Program where
  /-- The statements, in the order of their addresses. -/
  statements : Array Statement := #[]
  /-- The labels and their addresses. -/
  labels : List (Text × Int) := []
  deriving DecidableEq

namespace Program

/-- A program of bare instructions at the addresses from zero on. -/
def ofInstrs (instrs : List Instr) : Program where
  statements := (instrs.mapIdx fun k i => { ip := k, instr := i : Statement }).toArray

/-- The number of statements. -/
def size (p : Program) : Nat :=
  p.statements.size

/-- The instructions, in order. -/
def instrs (p : Program) : List Instr :=
  p.statements.toList.map (·.instr)

/-- The instruction words, in order. -/
def image (p : Program) : Array UInt32 :=
  p.statements.map (·.instr.encode)

/-! ### Looking up an address -/

/-- The difference of two addresses, as that of 64-bit integers. -/
def distance (a b : Int) : Int :=
  Numeral.wrap (a - b)

/-- Whether the statement at a position lies before an address. -/
def liesBefore (p : Program) (position : Nat) (ip : Int) : Bool :=
  match p.statements[position]? with
  | some s => distance s.ip ip < 0
  | none => false

/-- The first position in `[low, high)` whose statement does not lie before an address, found by
halving the range. -/
def lowerBound (p : Program) (ip : Int) (low high : Nat) : Nat :=
  if low < high then
    let middle := (low + high) / 2
    if p.liesBefore middle ip then p.lowerBound ip (middle + 1) high
    else p.lowerBound ip low middle
  else low
termination_by high - low

/-- The statement at an address, found by halving. -/
def search? (p : Program) (ip : Int) : Option Statement :=
  match p.statements[p.lowerBound ip 0 p.size]? with
  | some s => if distance s.ip ip = 0 then some s else none
  | none => none

/-- The statement whose position is its address, if there is one at this address. -/
def direct? (p : Program) (ip : Int) : Option Statement :=
  if ip < 0 then none
  else
    match p.statements[ip.toNat]? with
    | some s => if s.ip = ip then some s else none
    | none => none

/-- The statement at an address. -/
def at? (p : Program) (ip : Int) : Option Statement :=
  (p.direct? ip).or (p.search? ip)

/-- The source line of the instruction at an address, or zero. -/
def lineAt (p : Program) (ip : Int) : Int :=
  match p.at? ip with
  | some s => s.line
  | none => 0

/-! ### Labels -/

/-- Whether a label is listed no later than another: by the distance of the addresses, then by
name. -/
def labelLe (a b : Text × Int) : Bool :=
  distance a.2 b.2 < 0 || distance a.2 b.2 == 0 && !b.1.before a.1

/-- The labels by address and name. -/
def labelsInOrder (p : Program) : List (Text × Int) :=
  p.labels.mergeSort labelLe

/-- The names of the labels at an address, in order. -/
def labelsAt (p : Program) (ip : Int) : List Text :=
  (p.labelsInOrder.filter (·.2 = ip)).map (·.1)

end Program

end StackMachine
