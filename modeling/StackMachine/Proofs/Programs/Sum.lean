import StackMachine.Assembly.Expression.Eval
import StackMachine.Proofs.Programs.Basic

/-!
# The sum program

A program that sums an array: data cell 0 has the number of values, and the values follow
it. It walks down from the last value, keeping the number of values that remain and the sum
so far on the stack, and stores the sum at cell 100. The invariant of its loop is that the
sum of the remaining values is what is missing from the result; it is kept whatever the
values are, because a sum of reduced sums reduces to the same word.

## Main definitions

* `SumProgram.source`: the source text.
* `SumProgram.code`: its instructions.

## Main results

* `SumProgram.steps_loop`: what is left to do on any number of values.
* `SumProgram.sums_cells`: runs of the program on every data memory.
-/

namespace StackMachine

open Reference (Steps reduce flagsOf)

namespace SumProgram

/-! ### The program -/

/-- The lines of the source text. -/
def lines : List Text :=
  ["; Sum the array whose length is at data[LENGTH] and whose",
   "; values follow it. The sum is left on the stack and stored at RESULT.",
   "",
   ".equ LENGTH 0",
   ".equ RESULT 100",
   "",
   "        PUSH 0              ; sum",
   "        PUSH LENGTH",
   "        LOAD                ; [sum n]",
   "",
   "loop:   PUSH 0",
   "        CMP                 ; flags from n",
   "        JZ done",
   "        DUP",
   "        LOAD                ; [sum n x]",
   "        ROT                 ; [n x sum]",
   "        ADD",
   "        SWAP                ; [sum n]",
   "        DEC",
   "        JMP loop",
   "",
   "done:   POP",
   "        DUP",
   "        PUSH RESULT",
   "        STORE",
   "        HALT"]

/-- The source text. -/
def source : Text :=
  lines.flatMap Text.line

/-- The instructions. -/
def code : List Instr :=
  [.ofOpcode .push 0, .ofOpcode .push 0, .ofOpcode .load 0,
   -- the loop
   .ofOpcode .push 0, .ofOpcode .cmp 0, .ofOpcode .jz 13, .ofOpcode .dup 0, .ofOpcode .load 0,
   .ofOpcode .rot 0, .ofOpcode .add 0, .ofOpcode .swap 0, .ofOpcode .dec 0, .ofOpcode .jmp 3,
   -- the end
   .ofOpcode .pop 0, .ofOpcode .dup 0, .ofOpcode .push 100, .ofOpcode .store 0, .ofOpcode .halt 0]

theorem dollarless : .scalar '$' ∉ source := by
  decide +kernel

/-- The source text is accepted, with these instructions, and the values are loaded in line 15. -/
theorem parse_source :
    (@Assembler.parse .idle (Session.new .default).assembler source).2.toOption.map
        (fun p => (p.image.toList, p.lineAt 7)) =
      some (code.map Instr.encode, 15) := by
  decide +kernel

theorem decode?_encode_of_mem : ∀ i ∈ code, Instr.decode? i.encode = some i := by
  decide +kernel

/-! ### Its steps -/

variable {n j : Nat} {count sum value : Int} {data : List Int} {flags : Flags}

/-- The number of values comes on top of an empty sum. -/
theorem steps_begin (first : data[0]? = some count) :
    Steps 256 code 3 (.at 0 [] data flags) (.at 3 [count, 0] data flags) :=
  calc
    Steps 256 code 1 _ (.at 1 [0] data flags) := .single rfl (.push (by simp))
    Steps 256 code 1 _ (.at 2 [0, 0] data flags) := .single rfl (.push (by simp))
    Steps 256 code 1 _ (.at 3 [count, 0] data flags) := .single rfl (.load rfl first)

/-- The loop compares the number of values that remain with zero. -/
theorem steps_test :
    Steps 256 code 2 (.at 3 [count, sum] data flags)
      (.at 5 [count, sum] data (flagsOf (count - 0))) :=
  .test rfl rfl rfl (by simp)

/-- The loop goes on if values remain. -/
theorem steps_enter (remain : count ≠ 0) :
    Steps 256 code 4 (.at 3 [count, sum] data flags)
      (.at 7 [count, count, sum] data (flagsOf (count - 0))) :=
  calc
    Steps 256 code 2 _ (.at 5 [count, sum] data (flagsOf (count - 0))) := steps_test
    Steps 256 code 1 _ (.at 6 [count, sum] data (flagsOf (count - 0))) :=
      .pass rfl rfl (by simpa [Flags.taken, flagsOf] using remain)
    Steps 256 code 1 _ (.at 7 [count, count, sum] data (flagsOf (count - 0))) :=
      .single rfl (.dup rfl (by simp))

/-- The loop ends if no values remain. -/
theorem steps_leave :
    Steps 256 code 3 (.at 3 [0, sum] data flags) (.at 13 [0, sum] data (flagsOf 0)) :=
  calc
    Steps 256 code 2 _ (.at 5 [0, sum] data (flagsOf 0)) := steps_test
    Steps 256 code 1 _ (.at 13 [0, sum] data (flagsOf 0)) := .jump rfl rfl rfl rfl

/-- One pass through the loop adds the last of the values that remain. -/
theorem steps_pass (small : j < 1023) (cell : data[j + 1]? = some value) :
    Steps 256 code 10 (.at 3 [(j + 1 : Nat), sum] data flags)
      (.at 3 [j, reduce (value + sum)] data (flagsOf ((j + 1 : Nat) - 1))) := by
  have counted : reduce ((j + 1 : Nat) - 1) = j := by
    rw [Reference.reduce_of_fits (by omega) (by omega)]
    omega
  calc
    Steps 256 code 4 _ (.at 7 [(j + 1 : Nat), (j + 1 : Nat), sum] data
        (flagsOf ((j + 1 : Nat) - 0))) := steps_enter (by omega)
    Steps 256 code 1 _ (.at 8 [value, (j + 1 : Nat), sum] data (flagsOf ((j + 1 : Nat) - 0))) :=
      .single rfl (.load rfl cell)
    Steps 256 code 1 _ (.at 9 [sum, value, (j + 1 : Nat)] data (flagsOf ((j + 1 : Nat) - 0))) :=
      .single rfl (.rot rfl)
    Steps 256 code 1 _ (.at 10 [reduce (value + sum), (j + 1 : Nat)] data
        (flagsOf (value + sum))) := .single rfl (.add rfl)
    Steps 256 code 1 _ (.at 11 [(j + 1 : Nat), reduce (value + sum)] data
        (flagsOf (value + sum))) := .single rfl (.swap rfl)
    Steps 256 code 1 _ (.at 12 [reduce ((j + 1 : Nat) - 1), reduce (value + sum)] data
        (flagsOf ((j + 1 : Nat) - 1))) := .single rfl (.dec rfl)
    Steps 256 code 1 _ (.at 3 [j, reduce (value + sum)] data (flagsOf ((j + 1 : Nat) - 1))) := by
      rw [counted]
      exact .jump rfl rfl rfl rfl

/-- The loop adds the values that remain to the sum so far. -/
theorem steps_loop (inside : j < data.length) (small : j ≤ 1023) (sum : Int) :
    Steps 256 code (10 * j + 3) (.at 3 [j, reduce sum] data flags)
      (.at 13 [0, reduce (sum + ((data.drop 1).take j).sum)] data (flagsOf 0)) := by
  induction j generalizing sum flags with
  | zero => simpa using steps_leave
  | succ j ih =>
    have cell : data[j + 1]? = some data[j + 1] := List.getElem?_eq_getElem inside
    -- the program walks down, so the value that is added first is the last of those that remain
    have last : ((data.drop 1).take (j + 1)).sum = ((data.drop 1).take j).sum + data[j + 1] := by
      rw [List.take_add_one, List.getElem?_drop, Nat.add_comm 1 j, cell, List.sum_append]
      simp
    have regrouped : sum + ((data.drop 1).take (j + 1)).sum =
        data[j + 1] + sum + ((data.drop 1).take j).sum := by
      rw [last]
      ring
    have pass : Steps 256 code 10 (.at 3 [(j + 1 : Nat), reduce sum] data flags)
        (.at 3 [j, reduce (data[j + 1] + sum)] data (flagsOf ((j + 1 : Nat) - 1))) := by
      rw [← Reference.reduce_add_reduce]
      exact steps_pass (by omega) cell
    rw [show 10 * (j + 1) + 3 = 10 + (10 * j + 3) by omega, regrouped]
    exact pass.trans (ih (by omega) (by omega) _)

/-- The sum is stored and left on the stack. -/
theorem steps_end (inside : 100 < data.length) :
    Steps 256 code 5 (.at 13 [0, sum] data flags)
      { Reference.State.at 18 [sum] (data.set 100 sum) flags with halted := true } :=
  calc
    Steps 256 code 1 _ (.at 14 [sum] data flags) := .single rfl (.pop rfl)
    Steps 256 code 1 _ (.at 15 [sum, sum] data flags) := .single rfl (.dup rfl (by simp))
    Steps 256 code 1 _ (.at 16 [100, sum, sum] data flags) := .single rfl (.push (by simp))
    Steps 256 code 1 _ (.at 17 [sum] (data.set 100 sum) flags) :=
      .single rfl (.store rfl inside)
    Steps 256 code 1 _
        { Reference.State.at 18 [sum] (data.set 100 sum) flags with halted := true } :=
      .single rfl .halt

/-- All steps on an array that fits into data memory. -/
theorem steps_all (sized : data.length = 1024) (first : data[0]? = some (n : Int))
    (fits : n ≤ 1023) :
    let sum := reduce ((data.drop 1).take n).sum
    Steps 256 code (11 + 10 * n) (.at 0 [] data {})
      { Reference.State.at 18 [sum] (data.set 100 sum) (flagsOf 0) with halted := true } := by
  intro sum
  have added : Steps 256 code (10 * n + 3) (.at 3 [(n : Int), 0] data {})
      (.at 13 [0, sum] data (flagsOf 0)) := by
    have loop := @steps_loop n data {} (by omega) fits 0
    rwa [Int.zero_add] at loop
  rw [show 11 + 10 * n = 3 + (10 * n + 3 + 5) by omega]
  exact (steps_begin first).trans (added.trans (steps_end (by omega)))

/-- The steps up to the first load from the array; they do not ask whether it fits. -/
theorem steps_until_load (first : data[0]? = some count) (remain : count ≠ 0) :
    Steps 256 code 7 (.at 0 [] data {}) (.at 7 [count, count, 0] data (flagsOf (count - 0))) :=
  (steps_begin first).trans (steps_enter remain)

/-- **The sum program sums.** In every session of the default sizes, whatever was done with it
before, the program compiles, and it begins with the data that was given. If data cell 0 has a
number `n` of values that fits into data memory, a run with a budget of at least `11 + 10 * n`
cycles halts without an error after exactly as many, with the sum of the cells from 1 to `n`,
reduced to 32 bits, on the stack and in cell 100, and all other cells as they were. If it has any
other number, a run of at least 8 cycles faults on this number as an address, in line 15, and all
cells are as they were. -/
theorem sums_cells [Assembly.Interpreter] (earlier : List Session.Call)
    (cells : Vector Int32 1024) :
    let begun := (Session.Call.setData cells.toList 0).apply ((Session.new .default).uses earlier)
    ∃ s, begun.compile source = .ok s ∧ s.machine.data = cells.toArray ∧
      (∀ n : Nat, n ≤ 1023 → cells[0].toInt = n →
        let sum := Int32.ofInt (((cells.toList.drop 1).take n).map Int32.toInt).sum
        ∀ budget : Int, 11 + 10 * n ≤ budget →
          Session.Halts (s.run budget) (11 + 10 * n) [sum] (cells.set 100 sum).toArray) ∧
      (¬ (0 ≤ cells[0].toInt ∧ cells[0].toInt ≤ 1023) → ∀ budget : Int, 8 ≤ budget →
        Session.Faults (s.run budget)
          ⟨15, ⟨7, (Instr.ofOpcode .load 0).encode, .badAddress cells[0].toInt⟩⟩
          cells.toArray) := by
  intro begun
  have sizes : begun.machine.config = .default := Session.config_uses_new earlier
  obtain ⟨p, compiled, told⟩ := begun.exists_compile sizes dollarless parse_source
  obtain ⟨words, line⟩ := Prod.mk.inj told
  have start : (begun.load p).AtStart code := Session.atStart_load sizes words decode?_encode_of_mem
  have data : (begun.load p).machine.data = cells.toArray := Session.data_load sizes rfl rfl
  have sized : (cells.toList.map Int32.toInt).length = 1024 := by simp
  have first : (cells.toList.map Int32.toInt)[0]? = some cells[0].toInt := by simp
  refine ⟨begun.load p, compiled, data, ?_, fun outside budget enough => ?_⟩
  · intro n fits counted sum budget enough
    rw [counted] at first
    have steps := steps_all sized first fits
    rw [← List.map_drop, ← List.map_take] at steps
    have reduced : reduce (((cells.toList.drop 1).take n).map Int32.toInt).sum = sum.toInt :=
      (Machine.toInt_ofInt_eq_reduce _).symm
    rw [reduced] at steps
    refine start.halts (by rw [data]; exact steps) rfl rfl ?_ (by exact_mod_cast enough)
    simp [List.map_set, Vector.toList_toArray]
  · have steps := steps_until_load first (by omega)
    have faulted := start.faults_on_load (by rw [data]; exact steps) rfl outside
      (by exact_mod_cast enough)
    have shown : (begun.load p).program.lineAt (7 : Nat) = 15 := line
    rwa [shown] at faulted

/-- Three values, of which the first two have a sum that does not fit. -/
private def overflowing : Vector Int32 1024 :=
  ((((Vector.replicate 1024 0).set 0 3).set 1 2147483647).set 2 1).set 3 40

/-- One value more than data memory has room for. -/
private def overlong : Vector Int32 1024 :=
  (Vector.replicate 1024 7).set 0 1024

attribute [local instance] Assembly.Expression.interpreter

/-- The sum of three values wraps around, after a past in which another program has run; and 1024
is an address that does not exist. -/
theorem sums_cells_wrapping :
    (∃ s, ((Session.new .default).uses
        [.loadWords (some #[0x99]), .run 5, .setData overflowing.toList 0]).compile source = .ok s ∧
      Session.Halts (s.run 41) 41 [-2147483608] (overflowing.set 100 (-2147483608)).toArray) ∧
    ∃ s, ((Session.new .default).uses [.setData overlong.toList 0]).compile source = .ok s ∧
      Session.Faults (s.run 8) ⟨15, ⟨7, 0x20, .badAddress 1024⟩⟩ overlong.toArray := by
  obtain ⟨s, compiled, -, fitting, -⟩ :=
    sums_cells [.loadWords (some #[0x99]), .run 5] overflowing
  obtain ⟨s', compiled', -, -, unfitting⟩ := sums_cells [] overlong
  have counted : overflowing[0].toInt = (3 : Nat) := by decide +kernel
  have wrapped : Int32.ofInt (((overflowing.toList.drop 1).take 3).map Int32.toInt).sum =
      -2147483608 := by decide +kernel
  have large : overlong[0].toInt = 1024 := by decide +kernel
  have summed := fitting 3 (by decide) counted 41 (by decide)
  have faulted := unfitting (by rw [large]; decide) 8 (by decide)
  rw [wrapped] at summed
  rw [large] at faulted
  exact ⟨⟨s, compiled, summed⟩, s', compiled', faulted⟩

end SumProgram

end StackMachine
