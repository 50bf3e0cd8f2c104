import Mathlib.Logic.Function.Iterate
import StackMachine.Proofs.Machine.Steps

/-!
# Budgets add up

A run stops as soon as a step says that the machine does not go on. It says so exactly if
the machine has halted, and a halted machine stays as it is, so stopping early leads to the
same machine as spending the whole budget. A run is therefore a number of steps, budgets
can be split anywhere, and a machine that still runs has spent every cycle of its budget.

## Main results

* `Machine.advance_continues`: a machine goes on exactly if it has not halted.
* `Machine.runFor_eq_iterate`: a run is an iterated step.
* `Machine.cycles_step`, `Machine.cycles_runFor`: the cycles of a step and of a run.
* `Machine.run_is_iterated_step`: the laws of runs and budgets.
-/

namespace StackMachine

namespace Machine

/-! ### One step -/

/-- A machine goes on after a step exactly if the step has not halted it. -/
theorem advance_continues (m : Machine) : m.advance.2 = !m.advance.1.halted := by
  have kind := m.advance_kind
  generalize m.advance = result at kind
  cases kind with
  | halted stopped => simp [stopped]
  | outside | fault | success => rfl

/-- A halted machine stays as it is. -/
theorem step_of_halted {m : Machine} (stopped : m.halted = true) : m.step = m := by
  rw [step, advance_of_halted stopped]

/-- A step takes one cycle, or none if it stops the machine. -/
theorem cycles_step (m : Machine) :
    m.step.cycles = m.cycles + 1 ∨ (m.step.cycles = m.cycles ∧ m.step.halted = true) := by
  have kind := m.advance_kind
  unfold step
  generalize m.advance = result at kind
  cases kind with
  | halted stopped => exact .inr ⟨rfl, stopped⟩
  | outside | fault => exact .inr ⟨rfl, rfl⟩
  | @success word op operand next running fetch decodes performed =>
    have frame := frame_perform (m.fetched word) op operand
    rw [performed] at frame
    exact .inl (congrArg (· + 1) frame.cycles)

/-! ### Runs -/

/-- A run is an iterated step, although it stops early. -/
theorem runFor_eq_iterate (n : Nat) (m : Machine) : runFor n m = step^[n] m := by
  induction n generalizing m with
  | zero => rfl
  | succ n ih =>
    have continues := m.advance_continues
    rw [Function.iterate_succ_apply, step, runFor]
    split
    · rename_i next result
      rw [result, ih next]
    · rename_i next result
      -- the steps that are left out would have found a halted machine
      rw [result] at continues ⊢
      have stopped : next.halted = true := by simpa using continues.symm
      exact (Function.iterate_fixed (step_of_halted stopped) n).symm

theorem run_natCast (m : Machine) (n : Nat) : m.run n = step^[n] m :=
  runFor_eq_iterate n m

theorem run_run (m : Machine) {first second : Int} (hfirst : 0 ≤ first) (hsecond : 0 ≤ second) :
    (m.run first).run second = m.run (first + second) := by
  obtain ⟨a, rfl⟩ := Int.eq_ofNat_of_zero_le hfirst
  obtain ⟨b, rfl⟩ := Int.eq_ofNat_of_zero_le hsecond
  rw [← Int.natCast_add, run_natCast, run_natCast, run_natCast, ← Function.iterate_add_apply,
    Nat.add_comm]

/-- A run takes a cycle for every step of its budget as long as the machine has not halted. -/
theorem cycles_runFor (n : Nat) (m : Machine) :
    m.cycles ≤ (runFor n m).cycles ∧ (runFor n m).cycles ≤ m.cycles + n ∧
      ((runFor n m).halted = false → (runFor n m).cycles = m.cycles + n) := by
  simp only [runFor_eq_iterate]
  induction n with
  | zero => exact ⟨le_rfl, le_rfl, fun _ => rfl⟩
  | succ n ih =>
    rw [Function.iterate_succ_apply']
    obtain ⟨lower, upper, spent⟩ := ih
    rcases cycles_step (step^[n] m) with counted | ⟨kept, stopped⟩
    · refine ⟨by omega, by omega, fun running => ?_⟩
      -- a machine that runs after the last step ran before it
      have before : (step^[n] m).halted = false := by
        by_contra halted
        rw [step_of_halted (by simpa using halted)] at running
        exact halted running
      rw [counted, spent before, Nat.add_assoc]
    · refine ⟨by omega, by omega, fun running => ?_⟩
      rw [stopped] at running
      cases running

/-- **A run is an iterated step, and budgets add up.** For every machine: a run with a budget of
`n` leads where `n` steps lead; a step says that the machine goes on exactly if it has not halted,
and leaves a halted machine as it is; two runs lead where one run with the sum of their budgets
leads; a run takes at most as many cycles as its budget, and exactly as many if the machine has not
halted at its end; and a run with a negative budget changes nothing. -/
theorem run_is_iterated_step (m : Machine) :
    (∀ n : Nat, m.run n = step^[n] m) ∧
    (m.advance.2 = true ↔ m.step.halted = false) ∧
    (m.halted = true → m.step = m) ∧
    (∀ first second : Int, 0 ≤ first → 0 ≤ second →
      (m.run first).run second = m.run (first + second)) ∧
    (∀ n : Nat, m.cycles ≤ (m.run n).cycles ∧ (m.run n).cycles ≤ m.cycles + n ∧
      ((m.run n).halted = false → (m.run n).cycles = m.cycles + n)) ∧
    (∀ budget : Int, budget < 0 → m.run budget = m) := by
  refine ⟨m.run_natCast, ?_, step_of_halted, fun _ _ => m.run_run, fun n => cycles_runFor n m, ?_⟩
  · rw [advance_continues, step, Bool.not_eq_true']
  · intro budget negative
    have spent : budget.toNat = 0 := by omega
    rw [run, spent]
    rfl

/-- A machine with a loop that counts down from three and then leaves its program. -/
private def countdown : Machine :=
  (new {}).load (some #[0x310, 0x0B, 0x132]) [] 0

/-- The loop is over after seven cycles; the step that leaves the program takes none. -/
theorem run_is_iterated_step_countdown :
    (countdown.run 5).halted = false ∧ (countdown.run 5).cycles = 5 ∧
    (countdown.run 5).run 95 = countdown.run 100 ∧
    (countdown.run 100).halted = true ∧ (countdown.run 100).cycles = 7 ∧
    (countdown.run 100).step = countdown.run 100 ∧ countdown.run (-1) = countdown := by
  obtain ⟨-, -, -, split, counted, negative⟩ := run_is_iterated_step countdown
  obtain ⟨-, -, stays, -, -, -⟩ := run_is_iterated_step (countdown.run 100)
  have running : (countdown.run 5).halted = false := by decide +kernel
  have halted : (countdown.run 100).halted = true := by decide +kernel
  refine ⟨running, ?_, split 5 95 (by decide) (by decide), halted, by decide +kernel, stays halted,
    negative (-1) (by decide)⟩
  have spent := (counted 5).2.2 running
  exact spent.trans (by decide +kernel)

end Machine

end StackMachine
