import Mathlib.Algebra.Group.Int.Defs
import Mathlib.Data.List.Basic
import StackMachine.Debugger
import StackMachine.Proofs.Machine.Atomicity

/-!
# Memory commands

The memory command of a debugger shows a data cell or writes an integer to one. A write is
accepted silently, and everything that a memory command prints is either a cell or the
reason why nothing was done. A cell holds 32 bits of the 64 that an integer on a command
line may have: the others are dropped without a word, so that a write is read back as it
was given exactly if the integer fits in a cell.

## Main definitions

* `Debugger.AsksForMemory`: a line is a memory command with some arguments.
* `Debugger.withCell`: a debugger with one data cell changed.
* `Debugger.shown`: the text that shows an integer as the content of a cell.

## Main results

* `Debugger.execute_of_silent`, `Debugger.execute_of_printing`: what memory commands do.
* `Debugger.memory_commands_read_back`: what is read back after a write, and what stays.
-/

namespace StackMachine

theorem Text.line_ne_nil (t : Text) : Text.line t ≠ [] :=
  List.append_ne_nil_of_right_ne_nil t (by simp)

namespace Debugger

/-- A line is a memory command with some arguments. -/
def AsksForMemory (line : Text) (arguments : List Text) : Prop :=
  ∃ name, (name = Text.ofString "m" ∨ name = Text.ofString "memory") ∧
    Text.fields line = name :: arguments

/-- A debugger with one data cell changed. -/
def withCell (d : Debugger) (cell : Nat) (value : Int32) : Debugger :=
  d.withSession { d.session with
    machine := { d.session.machine with
      data := d.session.machine.data.setIfInBounds cell value } }

/-- The text that shows an integer as the content of a data cell: in decimal, and its last 32 bits
in hexadecimal. -/
def shown (address value : Int) : Text :=
  Text.line (Text.ofString ("[" ++ Numeral.decimal address ++ "] = " ++ Numeral.decimal value
    ++ " (0x" ++ Numeral.hex 8 (Int32.ofInt value).toUInt32.toNat ++ ")"))

variable {d : Debugger} {line later : Text} {arguments : List Text}

/-! ### Shown cells -/

theorem cellText_eq (address : Int) (value : Int32) :
    cellText address value = shown address value.toInt := by
  rw [shown, Int32.ofInt_toInt]
  rfl

/-- A cell holds an integer exactly if the integer has 32 bits. -/
theorem toInt_ofInt_eq_iff (value : Int) :
    (Int32.ofInt value).toInt = value ↔ -2 ^ 31 ≤ value ∧ value < 2 ^ 31 := by
  constructor
  · intro same
    rw [← same]
    exact ⟨Int32.le_toInt _, Int32.toInt_lt _⟩
  · rintro ⟨lower, upper⟩
    exact Int32.toInt_ofInt_of_le lower upper

/-- What a cell holds of an integer is shown like the integer exactly if it is the integer. -/
theorem cellText_ofInt_eq_iff (address value : Int) :
    cellText address (Int32.ofInt value) = shown address value ↔
      -2 ^ 31 ≤ value ∧ value < 2 ^ 31 := by
  rw [← toInt_ofInt_eq_iff, cellText_eq, shown, shown, Int32.ofInt_toInt]
  constructor
  · intro same
    have strings := congrArg String.toList
      (Text.ofString_injective (List.append_cancel_right same))
    simp only [String.toList_append, List.append_cancel_left_eq, List.append_cancel_right_eq,
      String.toList_inj] at strings
    exact Numeral.decimal_injective strings
  · intro same
    rw [same]

/-! ### Execution -/

/-- A line that is a memory command asks for what its arguments say. -/
theorem AsksForMemory.ofLine (asks : AsksForMemory line arguments) :
    Command.ofLine line = Command.ofMemory arguments := by
  obtain ⟨name, rfl | rfl, words⟩ := asks
  · rw [Command.ofLine, words]
    rfl
  · rw [Command.ofLine, words]
    rfl

theorem poke_eq (s : Session) (address : Int) (value : Int32) :
    s.poke address value =
      if s.machine.hasCell address then
        .ok { s with
          machine := { s.machine with
            data := s.machine.data.setIfInBounds address.toNat value } }
      else .error (.badAddress address) := by
  rw [Session.poke, Machine.poke]
  split <;> rfl

/-- A command that depends on a number and prints nothing has the number. -/
theorem exists_number_of_silent {word : Text} {command : Int → Command}
    (silent : (d.execute (.withNumber word command)).2 = []) :
    ∃ n, Literal.integer? 64 word = some n ∧ Command.withNumber word command = command n := by
  unfold Command.withNumber at silent ⊢
  split at silent
  · rename_i n number
    exact ⟨n, number, rfl⟩
  · exact absurd silent (Text.line_ne_nil _)

/-- A memory command that prints nothing has written an integer to a cell. -/
theorem execute_of_silent (silent : (d.execute (.ofMemory arguments)).2 = []) :
    ∃ address value rest a v, arguments = address :: value :: rest ∧
      Literal.integer? 64 address = some a ∧ Literal.integer? 64 value = some v ∧
      0 ≤ a ∧ a < d.session.machine.data.size ∧
      d.execute (.ofMemory arguments) = (d.withCell a.toNat (Int32.ofInt v), []) := by
  match arguments with
  | [] => exact absurd silent (Text.line_ne_nil _)
  | [address] =>
    obtain ⟨a, -, command⟩ := @exists_number_of_silent _ _ .peek silent
    rw [Command.ofMemory, command, execute] at silent
    split at silent <;> exact absurd silent (Text.line_ne_nil _)
  | address :: value :: rest =>
    obtain ⟨a, first, outer⟩ := exists_number_of_silent silent
    rw [Command.ofMemory, outer] at silent ⊢
    obtain ⟨v, second, inner⟩ := exists_number_of_silent silent
    rw [inner] at silent ⊢
    by_cases inside : d.session.machine.hasCell a = true
    · obtain ⟨least, greatest⟩ := (Machine.hasCell_eq_true_iff _ _).mp inside
      refine ⟨address, value, rest, a, v, rfl, first, second, least, greatest, ?_⟩
      rw [execute, poke_eq, if_pos inside]
      rfl
    · rw [execute, poke_eq, if_neg inside] at silent
      exact absurd silent (Text.line_ne_nil _)

/-- Showing a cell changes nothing, whether there is such a cell or not. -/
theorem execute_peek (d : Debugger) (address : Int) : (d.execute (.peek address)).1 = d := by
  rw [execute]
  split <;> rfl

/-- A memory command that prints anything changes nothing. -/
theorem execute_of_printing (printing : (d.execute (.ofMemory arguments)).2 ≠ []) :
    (d.execute (.ofMemory arguments)).1 = d := by
  match arguments with
  | [] => rfl
  | [address] =>
    rw [Command.ofMemory, Command.withNumber]
    split
    · exact d.execute_peek _
    · rfl
  | address :: value :: rest =>
    rw [Command.ofMemory, Command.withNumber] at printing ⊢
    split at printing
    · rename_i a first
      rw [Command.withNumber] at printing ⊢
      split at printing
      · rename_i v second
        by_cases inside : d.session.machine.hasCell a = true
        · rw [execute, poke_eq, if_pos inside] at printing
          exact absurd rfl printing
        · rw [execute, poke_eq, if_neg inside]
      · rfl
    · rfl

/-- A cell that was written shows what it holds of the integer. -/
theorem execute_peek_withCell {a : Int} (least : 0 ≤ a) (greatest : a < d.session.machine.data.size)
    (value : Int32) :
    (d.withCell a.toNat value).execute (.peek a) =
      (d.withCell a.toNat value, cellText a value) := by
  have size : (d.withCell a.toNat value).session.machine.data.size =
      d.session.machine.data.size := Array.size_setIfInBounds
  have inside : (d.withCell a.toNat value).session.machine.hasCell a = true :=
    (Machine.hasCell_eq_true_iff _ _).mpr ⟨least, by rw [size]; exact greatest⟩
  have content : (d.withCell a.toNat value).session.machine.data.getD a.toNat 0 = value := by
    have cell : a.toNat < d.session.machine.data.size := by omega
    simp [withCell, withSession, Array.getD, cell]
  rw [execute, Machine.peek, if_pos inside, content]

/-- **Memory commands read back what was written.** A memory command that prints anything changes
nothing. One that prints nothing has written an integer to a cell, and has changed nothing else: the
next memory command for the cell changes nothing and shows the last 32 bits of the integer, which is
the integer itself exactly if it has 32 bits. -/
theorem memory_commands_read_back (d : Debugger) (asks : AsksForMemory line arguments) :
    let after := (d.execute (.ofLine line)).1
    ((d.execute (.ofLine line)).2 ≠ [] → after = d) ∧
    ((d.execute (.ofLine line)).2 = [] →
      ∃ address value rest a v, arguments = address :: value :: rest ∧
        Literal.integer? 64 address = some a ∧ Literal.integer? 64 value = some v ∧
        0 ≤ a ∧ a < d.session.machine.data.size ∧
        after = d.withCell a.toNat (Int32.ofInt v) ∧
        (∀ i, i ≠ a.toNat → after.session.machine.data[i]? = d.session.machine.data[i]?) ∧
        (∀ later word, AsksForMemory later [word] → Literal.integer? 64 word = some a →
          after.execute (.ofLine later) = (after, cellText a (Int32.ofInt v))) ∧
        (cellText a (Int32.ofInt v) = shown a v ↔ -2 ^ 31 ≤ v ∧ v < 2 ^ 31)) := by
  intro after
  rw [asks.ofLine]
  have command : after = (d.execute (.ofMemory arguments)).1 := by
    simp only [after, asks.ofLine]
  refine ⟨fun printing => command.trans (execute_of_printing printing), fun silent => ?_⟩
  obtain ⟨address, value, rest, a, v, words, first, second, least, greatest, result⟩ :=
    execute_of_silent silent
  have written : after = d.withCell a.toNat (Int32.ofInt v) := by rw [command, result]
  refine ⟨address, value, rest, a, v, words, first, second, least, greatest, written, ?_, ?_,
    cellText_ofInt_eq_iff a v⟩
  · intro i other
    rw [written]
    exact Array.getElem?_setIfInBounds_ne other.symm
  · intro later word reads number
    rw [reads.ofLine, Command.ofMemory, Command.withNumber, number, written]
    exact execute_peek_withCell least greatest _

/-- A debugger over a new machine with two data cells. -/
private def fresh : Debugger :=
  ⟨Session.new { dataSize := 2 }, 0⟩

private theorem asks_write : AsksForMemory "memory 1 -7" ["1", "-7"] :=
  ⟨"memory", .inr rfl, by decide⟩

/-- A negative integer is read back. -/
theorem memory_commands_read_back_negative :
    AsksForMemory "memory 1 -7" ["1", "-7"] ∧
    (fresh.execute (.ofLine "memory 1 -7")).2 = [] ∧
    ((fresh.execute (.ofLine "memory 1 -7")).1.execute (.ofLine "m +1")).2 = shown 1 (-7) := by
  have silent : (fresh.execute (.ofLine "memory 1 -7")).2 = [] := by decide +kernel
  obtain ⟨-, written⟩ := memory_commands_read_back fresh asks_write
  obtain ⟨address, value, rest, a, v, words, first, second, -, -, -, -, reads, whole⟩ :=
    written silent
  cases words
  obtain rfl : 1 = a := Option.some.inj first
  obtain rfl : -7 = v := Option.some.inj second
  refine ⟨asks_write, silent, ?_⟩
  rw [reads "m +1" "+1" ⟨"m", .inl rfl, by decide⟩ (by decide)]
  exact whole.mpr (by decide)

/-- An integer of 33 bits is accepted silently, and not read back. -/
theorem memory_write_not_read_back :
    Literal.integer? 64 "4294967296" = some 4294967296 ∧
    (fresh.execute (.ofLine "m 0 4294967296")).2 = [] ∧
    ((fresh.execute (.ofLine "m 0 4294967296")).1.execute (.ofLine "m 0")).2 = shown 0 0 ∧
    shown 0 0 ≠ shown 0 4294967296 := by
  refine ⟨?_, ?_, ?_, ?_⟩ <;> decide +kernel

end Debugger

end StackMachine
