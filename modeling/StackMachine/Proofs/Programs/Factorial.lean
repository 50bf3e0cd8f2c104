import Mathlib.Data.Nat.Factorial.Basic
import StackMachine.Assembly.Expression.Eval
import StackMachine.Proofs.Programs.Basic

/-!
# The factorial program

A program that leaves the factorial of data cell 0 on the stack. It multiplies down from
the number, in a macro that its loop expands, and stops at one. The loop compares the
number itself with one, and not the difference, so that it stops at once for every number
below, the least one included. The invariant is that the factorial of what remains is the
factor that is missing from the result; products are reduced on the way, and the result is
the factorial reduced.

## Main definitions

* `FactorialProgram.source`: the source text.
* `FactorialProgram.code`: its instructions.

## Main results

* `FactorialProgram.steps_loop`: what is left to do on any number.
* `FactorialProgram.computes_factorial`: runs of the program on every number.
-/

namespace StackMachine

open Nat (factorial)
open Reference (Steps reduce flagsOf)

namespace FactorialProgram

/-! ### The program -/

/-- The lines of the source text. -/
def lines : List Text :=
  ["; Factorial of the value at data[0], left on the stack.",
   "",
   ".macro MULTIPLY_DOWN",
   "        DUP                 ; [acc n n]",
   "        ROT                 ; [n n acc]",
   "        MUL",
   "        SWAP                ; [acc n]",
   "        DEC",
   ".endm",
   "",
   "        PUSH 1",
   "        PUSH 0",
   "        LOAD                ; [acc n]",
   "",
   "loop:   PUSH 1",
   "        CMP",
   "        JLE done",
   "        MULTIPLY_DOWN",
   "        JMP loop",
   "",
   "done:   POP",
   "        HALT"]

/-- The source text. -/
def source : Text :=
  lines.flatMap Text.line

/-- The instructions. -/
def code : List Instr :=
  [.ofOpcode .push 1, .ofOpcode .push 0, .ofOpcode .load 0,
   -- the loop
   .ofOpcode .push 1, .ofOpcode .cmp 0, .ofOpcode .jle 12, .ofOpcode .dup 0, .ofOpcode .rot 0,
   .ofOpcode .mul 0, .ofOpcode .swap 0, .ofOpcode .dec 0, .ofOpcode .jmp 3,
   -- the end
   .ofOpcode .pop 0, .ofOpcode .halt 0]

theorem dollarless : .scalar '$' ∉ source := by
  decide +kernel

/-- The source text is accepted, with these instructions. -/
theorem parse_source :
    (@Assembler.parse .idle (Session.new .default).assembler source).2.toOption.map
        (fun p => p.image.toList) =
      some (code.map Instr.encode) := by
  decide +kernel

theorem decode?_encode_of_mem : ∀ i ∈ code, Instr.decode? i.encode = some i := by
  decide +kernel

/-! ### Its steps -/

variable {j : Nat} {count product : Int} {data : List Int} {flags : Flags}

/-- The number comes on top of the empty product. -/
theorem steps_begin (first : data[0]? = some count) :
    Steps 256 code 3 (.at 0 [] data flags) (.at 3 [count, 1] data flags) :=
  calc
    Steps 256 code 1 _ (.at 1 [1] data flags) := .single rfl (.push (by simp))
    Steps 256 code 1 _ (.at 2 [0, 1] data flags) := .single rfl (.push (by simp))
    Steps 256 code 1 _ (.at 3 [count, 1] data flags) := .single rfl (.load rfl first)

/-- The loop compares the number that remains with one. -/
theorem steps_test :
    Steps 256 code 2 (.at 3 [count, product] data flags)
      (.at 5 [count, product] data (flagsOf (count - 1))) :=
  .test rfl rfl rfl (by simp)

/-- The loop ends at one, and at every number below. -/
theorem steps_leave (small : count ≤ 1) :
    Steps 256 code 3 (.at 3 [count, product] data flags)
      (.at 12 [count, product] data (flagsOf (count - 1))) :=
  calc
    Steps 256 code 2 _ (.at 5 [count, product] data (flagsOf (count - 1))) := steps_test
    Steps 256 code 1 _ (.at 12 [count, product] data (flagsOf (count - 1))) := by
      refine .jump rfl rfl ?_ rfl
      simp only [Flags.taken, flagsOf, Bool.or_eq_true, decide_eq_true_eq]
      omega

/-- One pass through the loop multiplies by the number that remains, and counts it down. -/
theorem steps_pass (large : 1 < count) (fits : count < 2 ^ 31) :
    Steps 256 code 9 (.at 3 [count, product] data flags)
      (.at 3 [count - 1, reduce (count * product)] data (flagsOf (count - 1))) := by
  have counted : reduce (count - 1) = count - 1 := Reference.reduce_of_fits (by omega) (by omega)
  calc
    Steps 256 code 2 _ (.at 5 [count, product] data (flagsOf (count - 1))) := steps_test
    Steps 256 code 1 _ (.at 6 [count, product] data (flagsOf (count - 1))) := by
      refine .pass rfl rfl ?_
      simp only [Flags.taken, flagsOf, Bool.or_eq_false_iff, decide_eq_false_iff_not]
      omega
    Steps 256 code 1 _ (.at 7 [count, count, product] data (flagsOf (count - 1))) :=
      .single rfl (.dup rfl (by simp))
    Steps 256 code 1 _ (.at 8 [product, count, count] data (flagsOf (count - 1))) :=
      .single rfl (.rot rfl)
    Steps 256 code 1 _ (.at 9 [reduce (count * product), count] data
        (flagsOf (count * product))) := .single rfl (.mul rfl)
    Steps 256 code 1 _ (.at 10 [count, reduce (count * product)] data
        (flagsOf (count * product))) := .single rfl (.swap rfl)
    Steps 256 code 1 _ (.at 11 [reduce (count - 1), reduce (count * product)] data
        (flagsOf (count - 1))) := .single rfl (.dec rfl)
    Steps 256 code 1 _ (.at 3 [count - 1, reduce (count * product)] data
        (flagsOf (count - 1))) := by
      rw [counted]
      exact .jump rfl rfl rfl rfl

/-- The loop multiplies the product so far by the factorial of the number that remains. -/
theorem steps_loop (fits : j + 1 < 2 ^ 31) (product : Int) :
    Steps 256 code (9 * j + 3) (.at 3 [(j + 1 : Nat), reduce product] data flags)
      (.at 12 [1, reduce (factorial (j + 1) * product)] data (flagsOf 0)) := by
  induction j generalizing product flags with
  | zero => simpa using steps_leave le_rfl
  | succ j ih =>
    have regrouped : (factorial (j + 2) : Int) * product =
        factorial (j + 1) * ((j + 2 : Nat) * product) := by
      rw [Nat.factorial_succ (j + 1), Nat.cast_mul]
      ring
    have counted : ((j + 2 : Nat) : Int) - 1 = (j + 1 : Nat) := by omega
    have pass : Steps 256 code 9 (.at 3 [(j + 2 : Nat), reduce product] data flags)
        (.at 3 [(j + 1 : Nat), reduce ((j + 2 : Nat) * product)] data
          (flagsOf ((j + 2 : Nat) - 1))) := by
      rw [← Reference.reduce_mul_reduce, ← counted]
      exact steps_pass (by omega) (by omega)
    rw [show 9 * (j + 1) + 3 = 9 + (9 * j + 3) by omega, regrouped]
    exact pass.trans (ih (by omega) _)

/-- The product is left on the stack. -/
theorem steps_end :
    Steps 256 code 2 (.at 12 [count, product] data flags)
      { Reference.State.at 14 [product] data flags with halted := true } :=
  calc
    Steps 256 code 1 _ (.at 13 [product] data flags) := .single rfl (.pop rfl)
    Steps 256 code 1 _ { Reference.State.at 14 [product] data flags with halted := true } :=
      .single rfl .halt

/-- All steps on a positive number. -/
theorem steps_of_pos (fits : j + 1 < 2 ^ 31) (first : data[0]? = some ((j + 1 : Nat) : Int)) :
    Steps 256 code (8 + 9 * j) (.at 0 [] data {})
      { Reference.State.at 14 [reduce (factorial (j + 1))] data (flagsOf 0) with
        halted := true } := by
  have multiplied : Steps 256 code (9 * j + 3) (.at 3 [(j + 1 : Nat), 1] data {})
      (.at 12 [1, reduce (factorial (j + 1))] data (flagsOf 0)) := by
    have loop := @steps_loop j data {} fits 1
    rwa [mul_one] at loop
  rw [show 8 + 9 * j = 3 + (9 * j + 3 + 2) by omega]
  exact (steps_begin first).trans (multiplied.trans steps_end)

/-- All steps on one and on every number below. -/
theorem steps_of_le_one (small : count ≤ 1) (first : data[0]? = some count) :
    Steps 256 code 8 (.at 0 [] data {})
      { Reference.State.at 14 [1] data (flagsOf (count - 1)) with halted := true } :=
  (steps_begin first).trans ((steps_leave small).trans steps_end)

/-- **The factorial program computes factorials.** In every session of the default sizes, whatever
was done with it before, the program compiles, and any number can be written to data cell 0. For a
number of at least two, a run then halts without an error after `8 + 9 * (n - 1)` cycles with the
factorial, reduced to 32 bits, on the stack; for every other number, negative ones included, after
8 cycles with one on the stack. Any budget of at least as many cycles leads there, and all cells
are as they were. -/
theorem computes_factorial [Assembly.Interpreter] (earlier : List Session.Call) (n : Int32) :
    let begun := (Session.new .default).uses earlier
    ∃ s, begun.compile source = .ok s ∧
      ∃ t, s.poke 0 n = .ok t ∧ t.machine.data = s.machine.data.set! 0 n ∧
        ∀ budget : Int, 8 + 9 * max (n.toInt - 1) 0 ≤ budget →
          Session.Halts (t.run budget) (8 + 9 * (n.toInt - 1).toNat)
            [if 2 ≤ n.toInt then Int32.ofInt (factorial n.toInt.toNat) else 1]
            t.machine.data := by
  intro begun
  have sizes : begun.machine.config = .default := Session.config_uses_new earlier
  obtain ⟨p, compiled, words⟩ := begun.exists_compile sizes dollarless parse_source
  have loaded : (begun.load p).AtStart code :=
    Session.atStart_load sizes words decode?_encode_of_mem
  obtain ⟨t, poked, start, data⟩ := loaded.poke (by decide : 0 < 1024) n
  refine ⟨begun.load p, compiled, t, poked, data, fun budget enough => ?_⟩
  have first : (t.machine.data.toList.map Int32.toInt)[0]? = some n.toInt := by
    simp [data, loaded.size]
  rcases Int.lt_or_le 1 n.toInt with large | small
  · obtain ⟨j, counted⟩ : ∃ j : Nat, n.toInt = (j + 1 : Nat) := ⟨(n.toInt - 1).toNat, by omega⟩
    have cycles : (n.toInt - 1).toNat = j := by omega
    have fits := n.toInt_lt
    rw [if_pos (by omega), cycles]
    rw [counted] at first
    refine start.halts (steps_of_pos (by omega) first) rfl ?_ rfl (by omega)
    show [reduce (factorial (j + 1))] = [(Int32.ofInt (factorial n.toInt.toNat)).toInt]
    rw [Machine.toInt_ofInt_eq_reduce, counted, Int.toNat_natCast]
  · have cycles : (n.toInt - 1).toNat = 0 := by omega
    rw [if_neg (by omega), cycles]
    exact start.halts (steps_of_le_one small first) rfl rfl rfl (by omega)

attribute [local instance] Assembly.Expression.interpreter

/-- The factorial of 13 is the first one that does not fit, and the least number is no
exception. -/
theorem computes_factorial_extremes :
    (∃ s, (Session.new .default).compile source = .ok s ∧ ∃ t, s.poke 0 13 = .ok t ∧
      Session.Halts (t.run 116) 116 [1932053504] t.machine.data) ∧
    ∃ s, (Session.new .default).compile source = .ok s ∧ ∃ t, s.poke 0 (-2147483648) = .ok t ∧
      Session.Halts (t.run 10000) 8 [1] t.machine.data := by
  obtain ⟨s, compiled, t, poked, -, wrapping⟩ := computes_factorial [] 13
  obtain ⟨s', compiled', t', poked', -, least⟩ := computes_factorial [] (-2147483648)
  exact ⟨⟨s, compiled, t, poked, wrapping 116 (by decide)⟩,
    s', compiled', t', poked', least 10000 (by decide)⟩

end FactorialProgram

end StackMachine
