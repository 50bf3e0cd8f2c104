import StackMachine.Proofs.Machine.Operations

/-!
# Initial data

A load writes values to data memory one after the other, each at the first address and its
position in the list. The sum has 64 bits and wraps around, and a value whose address has
no cell is left out. Data memory is smaller than half of the range of addresses, so that an
address that wraps around becomes negative and is never that of a cell: a cell has the
value that the sum over all integers gives it, and is zero if there is none.

## Main definitions

* `Machine.valueFor?`: the value that a list has for a cell.

## Main results

* `Machine.wrap_eq_cell_iff`: only an address that does not wrap around is that of a cell.
* `Machine.getElem?_place`: a cell after values were written.
* `Machine.load_fills_cells`: data memory after a load.
-/

namespace StackMachine

namespace Machine

/-- The value that a list has for a cell if its first value is meant for the cell `start`. -/
def valueFor? (values : List Int32) (start : Int) (cell : Nat) : Option Int32 :=
  if 0 ≤ cell - start then values[(cell - start).toNat]? else none

@[simp] theorem valueFor?_nil (start : Int) (cell : Nat) : valueFor? [] start cell = none := by
  simp [valueFor?]

theorem valueFor?_cons_self (value : Int32) (rest : List Int32) (cell : Nat) :
    valueFor? (value :: rest) cell cell = some value := by
  simp [valueFor?]

/-- Behind the first value of a list the others are meant for the cells from the next one on. -/
theorem valueFor?_cons_of_ne (value : Int32) (rest : List Int32) {start : Int} {cell : Nat}
    (other : start ≠ cell) :
    valueFor? (value :: rest) start cell = valueFor? rest (start + 1) cell := by
  unfold valueFor?
  by_cases before : 0 ≤ cell - start
  · have position : (cell - start).toNat = (cell - (start + 1)).toNat + 1 := by omega
    rw [if_pos before, if_pos (by omega), position, List.getElem?_cons_succ]
  · rw [if_neg before, if_neg (by omega)]

/-- A list has no value for the cells before its first one. -/
theorem valueFor?_of_lt (values : List Int32) {start : Int} {cell : Nat} (before : cell < start) :
    valueFor? values start cell = none :=
  if_neg (by omega)

theorem valueFor?_eq (values : List Int32) (start : Int) (cell : Nat) :
    valueFor? values start cell =
      if 0 ≤ cell - start ∧ cell - start < values.length then values[(cell - start).toNat]?
      else none := by
  unfold valueFor?
  by_cases meant : 0 ≤ cell - start
  · by_cases inside : cell - start < values.length
    · rw [if_pos meant, if_pos ⟨meant, inside⟩]
    · rw [if_pos meant, if_neg (fun both => inside both.2),
        List.getElem?_eq_none_iff.mpr (by omega)]
  · rw [if_neg meant, if_neg (fun both => meant both.1)]

/-! ### Addresses -/

/-- A sum of 64 bits is the address of a cell exactly if it has not wrapped around: otherwise it is
negative. -/
theorem wrap_eq_cell_iff {address : Int} {cell : Nat} (lower : -2 ^ 63 ≤ address)
    (upper : address < 2 ^ 64) (small : cell < 2 ^ 63) :
    Numeral.wrap address = cell ↔ address = cell := by
  unfold Numeral.wrap
  by_cases fits : address < 2 ^ 63
  · rw [Int.bmod_eq_of_le (by omega) (by omega)]
  · have wrapped : Int.bmod address 0x10000000000000000 = address - 2 ^ 64 := by
      have shifted := Int.sub_bmod_right address 0x10000000000000000
      rw [← shifted]
      exact Int.bmod_eq_of_le (by omega) (by omega)
    rw [wrapped]
    omega

/-! ### Writing values -/

/-- A cell after one value was written. -/
theorem getElem?_write (cells : Array Int32) (address : Int) (value : Int32) (cell : Nat) :
    (if 0 ≤ address ∧ address < cells.size then cells.setIfInBounds address.toNat value
      else cells)[cell]? =
      if address = cell then cells[cell]?.map fun _ => value else cells[cell]? := by
  by_cases there : address = cell
  · subst there
    by_cases inside : cell < cells.size
    · simp [inside]
    · simp [inside]
  · rw [if_neg there]
    split
    · exact Array.getElem?_setIfInBounds_ne (by omega)
    · rfl

/-- A cell after values were written: it has the value that the list has for it, or what it had
before. -/
theorem getElem?_place {cells : Array Int32} {start : Int} {n : Nat} {values : List Int32}
    (lower : -2 ^ 63 ≤ start) (upper : start < 2 ^ 63) (few : n + values.length ≤ 2 ^ 63)
    {cell : Nat} (small : cell < 2 ^ 63) :
    (place cells start n values)[cell]? =
      cells[cell]?.map fun old => (valueFor? values (start + n) cell).getD old := by
  induction values generalizing cells n with
  | nil => simp only [place, valueFor?_nil, Option.getD_none, Option.map_id']
  | cons value rest ih =>
    rw [List.length_cons] at few
    have later : start + (n + 1 : Nat) = start + n + 1 := by omega
    have address : Numeral.wrap (start + n) = cell ↔ start + n = cell :=
      wrap_eq_cell_iff (by omega) (by omega) small
    rw [place, ih (by omega), getElem?_write, later]
    by_cases meant : start + n = cell
    · -- no later value is meant for the cell of the first one
      rw [if_pos (address.mpr meant), meant, valueFor?_cons_self, valueFor?_of_lt rest (by omega),
        Option.map_map]
      rfl
    · rw [if_neg (fun wrapped => meant (address.mp wrapped)), valueFor?_cons_of_ne value rest meant]

theorem size_load (m : Machine) (image : Option (Array UInt32)) (values : List Int32)
    (start : Int) : (m.load image values start).data.size = m.config.dataSize.toNat := by
  show (place _ start 0 values).size = _
  rw [size_place]
  exact Array.size_replicate

/-- A cell after a load has the value meant for it, or is zero. -/
theorem getElem?_load (m : Machine) (image : Option (Array UInt32)) {values : List Int32}
    {start : Int} (lower : -2 ^ 63 ≤ start) (upper : start < 2 ^ 63)
    (few : values.length ≤ 2 ^ 63) {cell : Nat} (inside : cell < m.config.dataSize)
    (small : cell < 2 ^ 63) :
    (m.load image values start).data[cell]? = some ((valueFor? values start cell).getD 0) := by
  have zeros : (Array.replicate m.config.dataSize.toNat (0 : Int32))[cell]? = some 0 := by
    rw [Array.getElem?_replicate, if_pos (by omega)]
  have placed : (m.load image values start).data[cell]? =
      (Array.replicate m.config.dataSize.toNat (0 : Int32))[cell]?.map fun old =>
        (valueFor? values (start + (0 : Nat)) cell).getD old :=
    getElem?_place lower upper (by omega) small
  rwa [zeros, Nat.cast_zero, add_zero] at placed

/-- **A load fills data memory.** On a machine of any sizes, whatever was done with it before, data
memory has its size after a load, and every cell holds the value whose position is its distance
from the start over all integers, or zero if no value has this position. Sizes and addresses are
64-bit integers; a sum of both that wraps around is no exception. -/
theorem load_fills_cells {config : Config} (sized : config.dataSize < 2 ^ 63)
    (earlier : List Operation) (image : Option (Array UInt32)) {values : List Int32}
    (few : values.length < 2 ^ 63) {start : Int} (lower : -2 ^ 63 ≤ start)
    (upper : start < 2 ^ 63) :
    let m := (reached config earlier).load image values start
    (m.data.size : Int) = config.normalize.dataSize ∧
    ∀ i : Nat, i < config.normalize.dataSize →
      (0 ≤ i - start → i - start < values.length →
        m.data[i]? = values[(i - start).toNat]?) ∧
      (¬ (0 ≤ i - start ∧ i - start < values.length) → m.data[i]? = some 0) := by
  intro m
  have sizes : (reached config earlier).config = config.normalize :=
    (sameBuild_reached config earlier []).config
  have positive := config.dataSize_normalize_pos
  have bounded : config.normalize.dataSize < 2 ^ 63 := by
    simp only [Config.normalize, Config.default]
    split <;> omega
  refine ⟨?_, fun i inside => ?_⟩
  · rw [size_load, sizes]
    omega
  · have cell : m.data[i]? = some ((valueFor? values start i).getD 0) :=
      getElem?_load _ image lower upper (by omega) (by rw [sizes]; exact inside) (by omega)
    rw [valueFor?_eq] at cell
    refine ⟨fun meant within => ?_, fun outside => ?_⟩
    · have found : values[(i - start).toNat]? = some values[(i - start).toNat] :=
        List.getElem?_eq_getElem (by omega)
      rw [if_pos ⟨meant, within⟩, found, Option.getD_some] at cell
      rw [cell, found]
    · rwa [if_neg outside] at cell

/-- Two cells that were written before. -/
private def written : List Operation :=
  [.call (.poke 0 7), .call (.poke 1 8)]

/-- Of four values the first one is meant for the greatest address, and the others would wrap
around to the least ones: no cell is filled, and the old values are gone. Of values that begin
before the first cell the later ones are kept. -/
theorem load_fills_cells_wrapping :
    ((reached { dataSize := 2 } written).data = #[7, 8]) ∧
    ((reached { dataSize := 2 } written).load none [1, 2, 3, 4] (2 ^ 63 - 1)).data[0]? = some 0 ∧
    ((reached { dataSize := 2 } written).load none [1, 2, 3, 4] (-2)).data[1]? = some 4 := by
  have sized : ({ dataSize := 2 } : Config).dataSize < 2 ^ 63 := by decide
  have few : [(1 : Int32), 2, 3, 4].length < 2 ^ 63 := by decide
  have greatest : (2 ^ 63 - 1 : Int) < 2 ^ 63 := by decide
  have beforeFirst : (-2 ^ 63 : Int) ≤ -2 := by decide
  obtain ⟨-, wrapping⟩ := load_fills_cells sized written none few (by decide) greatest
  obtain ⟨-, cut⟩ := load_fills_cells sized written none few beforeFirst (by decide)
  exact ⟨by decide, (wrapping 0 (by decide)).2 (by decide),
    (cut 1 (by decide)).1 (by decide) (by decide)⟩

end Machine

end StackMachine
