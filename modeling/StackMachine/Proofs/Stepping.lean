import StackMachine.Assembly.Expression.Eval
import StackMachine.Debugger
import StackMachine.Proofs.Machine.Budgets
import StackMachine.Proofs.Sessions

/-!
# Stepping and running report the same

A step reports its error with the source line from before it, a run with the line that it
ends on. The two lines are the same, because a fault leaves the instruction pointer where
it is. Stepping until the machine halts or a number of steps is spent therefore ends and
reports like a run with that number as budget, and the line of an error is that of the
statement at the address of the fault.

## Main definitions

* `Program.Finds`: addresses are looked up to the statements that lie there.
* `Session.stepFor`: repeated steps, with the error of the last.
* `Session.Sound`: what holds of sessions and is needed to find the line of a fault.

## Main results

* `Session.Sound.uses`: all uses keep a session sound.
* `Session.Sound.step_eq_run`: a step reports like a run of one cycle.
* `Session.Sound.stepsFrom_eq_run`: repeated steps report like a run.
* `Debugger.execute_step_eq_execute_proceed`: what a debugger prints on the way.
* `Session.stepping_reports_like_running`: steps, runs and the debugger in every session.
-/

namespace StackMachine

open Assembly (Interpreter)

/-! ### Lines of addresses -/

namespace Program

variable {p : Program} {size k : Nat} {statement : Statement}

/-- An address below `size` is looked up to the statement that lies there, if there is one. -/
def Finds (p : Program) (size : Nat) : Prop :=
  ∀ k < size, ∀ statement, p.at? k = some statement ↔ statement ∈ p.statements ∧ statement.ip = k

theorem Finds.lineAt_of_mem (finds : p.Finds size) (inside : k < size)
    (member : statement ∈ p.statements) (place : statement.ip = k) :
    p.lineAt k = statement.line := by
  rw [lineAt, (finds k inside statement).mpr ⟨member, place⟩]

theorem Finds.lineAt_eq_zero (finds : p.Finds size) (inside : k < size)
    (nowhere : ∀ statement ∈ p.statements, statement.ip ≠ k) : p.lineAt k = 0 := by
  cases found : p.at? k with
  | none => rw [lineAt, found]
  | some statement =>
    obtain ⟨member, place⟩ := (finds k inside statement).mp found
    exact absurd place (nowhere statement member)

/-- Statements without gaps are found. -/
theorem Dense.finds (dense : p.Dense) : p.Finds p.size := by
  intro k inside statement
  have found : p.statements[k]? = some p.statements[k] := Array.getElem?_eq_getElem inside
  rw [at?_of_placed found (dense k _ found), Option.some.injEq]
  constructor
  · rintro rfl
    exact ⟨Array.getElem_mem inside, dense k _ found⟩
  · rintro ⟨member, place⟩
    obtain ⟨j, there, rfl⟩ := Array.getElem_of_mem member
    have position := dense j _ (Array.getElem?_eq_getElem there)
    obtain rfl : k = j := by omega
    rfl

/-- In the order of their addresses, gaps or not, statements are found. -/
theorem Ordered.finds (ordered : p.Ordered) (sized : size ≤ 2 ^ 63) : p.Finds size :=
  fun _ _ _ => ordered.at?_eq_some_iff (by omega) (by omega)

end Program

/-- The statements of an accepted program are found, however many there are. -/
theorem Assembler.finds_of_parse [Interpreter] {a : Assembler} {source : Text} {p : Program}
    (accepted : (a.parse source).2 = .ok p) : p.Finds p.size := by
  obtain ⟨r, sound, -, -, rfl⟩ := exists_reader_of_parse accepted
  have dense : r.program.Dense := fun _ _ => r.program_placed sound
  exact dense.finds

/-! ### Faults and the instruction pointer -/

/-- A step that ends with a fault leaves the instruction pointer where it is. -/
theorem Machine.Consistent.fault_step {config : Config} {m : Machine} (h : m.Consistent config) :
    m.step.fault = none ∨ m.step.ip = m.ip := by
  have kind := m.advance_kind
  unfold step
  generalize m.advance = result at kind
  cases kind with
  | halted | outside | fault => exact .inr rfl
  | @success word op operand next running fetch decodes performed =>
    have frame := frame_perform (m.fetched word) op operand
    rw [performed] at frame
    exact .inl (frame.fault.trans (h.fault_of_running running))

namespace Session

/-! ### Sound sessions -/

/-- The addresses of words are 64-bit integers. -/
def Call.Addressable : Call → Prop
  | loadWords words => (words.getD #[]).size < 2 ^ 63
  | compile _ | setData .. | reset | step | run _ | poke .. => True

/-- The machine of a session is consistent and has the words of the session, and the statements at
their addresses are found. -/
structure Sound (config : Config) (s : Session) : Prop where
  machine : s.machine.Consistent config
  image : s.machine.image = s.image
  finds : s.program.Finds s.words.size

variable {config : Config} {s : Session}

theorem sound_new (config : Config) : (new config).Sound config where
  machine := Machine.consistent_new config
  image := rfl
  finds := fun k inside => absurd inside (Nat.not_lt_zero k)

/-- A start of a session is sound if the statements are found. -/
theorem sound_reset (machine : s.machine.Consistent config)
    (finds : s.program.Finds s.words.size) : s.reset.Sound config where
  machine := machine.load s.image s.data s.dataStart
  image := rfl
  finds := finds

theorem Sound.step (sound : s.Sound config) : s.step.1.Sound config where
  machine := sound.machine.advance
  image := s.machine.image_advance.trans sound.image
  finds := sound.finds

theorem Sound.run (sound : s.Sound config) (budget : Int) : (s.run budget).1.Sound config where
  machine := sound.machine.apply (.run budget)
  image := (@Machine.image_apply s.machine (.run budget) rfl).trans sound.image
  finds := sound.finds

/-- A use keeps a session sound. -/
theorem Sound.apply [Interpreter] (sound : s.Sound config) (call : Call)
    (addressable : call.Addressable) : (call.apply s).Sound config := by
  have ⟨machine, image, finds⟩ := sound
  cases call with
  | compile source =>
    cases compiled : s.compile source with
    | error error =>
      rw [Call.apply_compile_of_error compiled]
      exact ⟨machine, image, finds⟩
    | ok next =>
      obtain ⟨p, parsed, rfl⟩ := compile_eq_ok_iff.mp compiled
      rw [Call.apply_compile_of_ok compiled]
      refine sound_reset machine ?_
      have size : p.image.size = p.size := Array.size_map ..
      show p.Finds p.image.size
      rw [size]
      exact Assembler.finds_of_parse parsed
  | loadWords words =>
    have sized : (words.getD #[]).size < 2 ^ 63 := addressable
    exact sound_reset machine ((ordered_statementsFrom (by simpa using sized)).finds sized.le)
  | setData values start => exact ⟨machine, image, finds⟩
  | reset => exact sound_reset machine finds
  | step => exact sound.step
  | run budget => exact sound.run budget
  | poke address value =>
    have poked := machine.poke address value
    have kept := @Machine.image_apply s.machine (.poke address value) rfl
    simp only [Call.apply, Machine.Call.apply, poke] at poked kept ⊢
    cases outcome : s.machine.poke address value with
    | error cause => exact ⟨machine, image, finds⟩
    | ok next =>
      rw [outcome] at poked kept
      exact ⟨poked, kept.trans image, finds⟩

/-- All uses keep a session sound. -/
theorem Sound.uses [Interpreter] (sound : s.Sound config) {calls : List Call}
    (addressable : ∀ call ∈ calls, call.Addressable) : (s.uses calls).Sound config := by
  induction calls generalizing s with
  | nil => exact sound
  | cons call rest ih =>
    obtain ⟨first, others⟩ := List.forall_mem_cons.mp addressable
    exact ih (sound.apply call first) others

/-! ### Steps and runs -/

/-- Repeated steps, at most `n` and none after the machine has halted, with the error of the last;
`error` is that of the step before. -/
def stepsFrom (error : Option RuntimeError) : Nat → Session → Session × Option RuntimeError
  | 0, s => (s, error)
  | n + 1, s =>
    let (next, error) := s.step
    if next.machine.halted then (next, error) else stepsFrom error n next

/-- Steps until the machine has halted, but at most `n`, with the error of the last step. -/
def stepFor (s : Session) (n : Nat) : Session × Option RuntimeError :=
  stepsFrom none n s

theorem stepsFrom_succ (error : Option RuntimeError) (n : Nat) (s : Session) :
    stepsFrom error (n + 1) s =
      if s.step.1.machine.halted then s.step else stepsFrom s.step.2 n s.step.1 :=
  rfl

theorem run_succ (s : Session) (n : Nat) : s.run (n + 1 : Nat) = s.step.1.run n := by
  have machine : s.machine.run (n + 1 : Nat) = s.machine.step.run n := by
    rw [Machine.run_natCast, Machine.run_natCast, Function.iterate_succ_apply]
  rw [run, machine]
  rfl

/-- A step reports like a run of one cycle, although it takes the line before it. -/
theorem Sound.step_eq_run (sound : s.Sound config) : s.step = s.run (1 : Nat) := by
  rw [run_succ]
  refine Prod.ext rfl ?_
  show s.machine.step.fault.map _ = s.machine.step.fault.map _
  rcases sound.machine.fault_step with unharmed | stays
  · rw [unharmed]
    rfl
  · have line : s.lineNo = s.step.1.lineNo := congrArg s.program.lineAt stays.symm
    rw [line]
    rfl

/-- A run of a halted session reports what a run of no cycles does. -/
theorem run_of_halted (halted : s.machine.halted = true) (n : Nat) : s.run n = s.run (0 : Nat) := by
  have machine : s.machine.run n = s.machine.run (0 : Nat) := by
    rw [Machine.run_natCast, Machine.run_natCast]
    exact Function.iterate_fixed (Machine.step_of_halted halted) n
  rw [run, machine]
  rfl

/-- Repeated steps report like a run. -/
theorem Sound.stepsFrom_eq_run (sound : s.Sound config) (error : Option RuntimeError) (n : Nat) :
    stepsFrom error (n + 1) s = s.run (n + 1 : Nat) := by
  induction n generalizing s error with
  | zero =>
    rw [stepsFrom_succ, ← sound.step_eq_run]
    split <;> rfl
  | succ n ih =>
    rw [stepsFrom_succ, run_succ]
    split
    · rename_i halted
      exact (sound.step_eq_run.trans (run_succ s 0)).trans (run_of_halted halted _).symm
    · exact ih sound.step _

/-- A session that has not halted after a step has no error to report. -/
theorem Sound.error_of_running (sound : s.Sound config)
    (running : s.step.1.machine.halted = false) : s.step.2 = none :=
  Option.map_eq_none_iff.mpr (sound.machine.advance.fault_of_running running)

/-- The line of an error is that of the statement at the address of the fault, or zero if there is
none. -/
theorem Sound.line_of_error (sound : s.Sound config) {budget : Int} {error : RuntimeError}
    (reported : (s.run budget).2 = some error) :
    (∀ statement ∈ s.program.statements, statement.ip = error.fault.ip →
        error.line = statement.line) ∧
      ((∀ statement ∈ s.program.statements, statement.ip ≠ error.fault.ip) → error.line = 0) := by
  have after : (s.run budget).1.Sound config := sound.run budget
  obtain ⟨fault, faulted, rfl⟩ := Option.map_eq_some_iff.mp reported
  obtain ⟨-, nonnegative, inside, place, -⟩ := after.machine.faulted fault faulted
  obtain ⟨k, address⟩ := Int.eq_ofNat_of_zero_le nonnegative
  have listed : k < (s.run budget).1.words.size := by
    rw [Machine.code, after.image, address] at inside
    exact Int.ofNat_lt.mp inside
  have line : (s.run budget).1.lineNo = s.program.lineAt k := congrArg s.program.lineAt address
  rw [place, address]
  show (∀ statement ∈ s.program.statements, statement.ip = k → (s.run budget).1.lineNo = _) ∧
    (_ → (s.run budget).1.lineNo = 0)
  rw [line]
  exact ⟨fun _ member there => after.finds.lineAt_of_mem listed member there,
    after.finds.lineAt_eq_zero listed⟩

end Session

/-! ### The debugger -/

namespace Debugger

open Session

/-- Stepping in a debugger leads where repeated steps lead, and prints the error of the last. -/
theorem stepFor_eq {config : Config} {s : Session} (sound : s.Sound config) (n : Nat) :
    stepFor n s = ((s.stepFor n).1, errorLine (s.stepFor n).2) := by
  induction n generalizing s with
  | zero => rfl
  | succ n ih =>
    show (if s.step.1.machine.halted then (s.step.1, errorLine s.step.2)
      else stepFor n s.step.1) = _
    rw [Session.stepFor, stepsFrom_succ]
    cases halted : s.step.1.machine.halted with
    | true => rfl
    | false =>
      rw [sound.error_of_running halted]
      exact ih sound.step

/-- Stepping as often as the budget of a debugger allows does and prints what continuing does. -/
theorem execute_step_eq_execute_proceed {config : Config} {s : Session} (sound : s.Sound config)
    {n : Nat} (positive : 1 ≤ n) :
    execute ⟨s, n⟩ (.step n) = execute ⟨s, n⟩ .proceed := by
  obtain ⟨k, rfl⟩ := Nat.exists_eq_add_of_le' positive
  have steps : s.stepFor (k + 1) = s.run (k + 1 : Nat) := sound.stepsFrom_eq_run none k
  simp only [execute, Int.toNat_natCast, stepFor_eq sound, steps]

/-- A line of two words, the first of which is `s`, asks for as many steps as the second says. -/
theorem ofLine_step {line word : Text} {n : Int}
    (words : Text.fields line = [Text.ofString "s", word])
    (number : Literal.integer? 64 word = some n) : Command.ofLine line = .step n := by
  rw [Command.ofLine, words]
  show Command.ofStep [word] = _
  rw [Command.ofStep, Command.withNumber, number]

end Debugger

namespace Session

/-- **Stepping and running report the same.** In every session that uses lead to, and for every
positive number: steps, repeated until the machine has halted or the number is spent, lead where a
run with the number as budget leads, and the last step reports what the run reports; the error is
about the fault of the machine, and its line is that of the statement at the address of the fault,
or zero if there is none. So the command `s` with the number and the command `c` of a debugger with
the number as budget print the same and leave the same session. -/
theorem stepping_reports_like_running [Interpreter] (config : Config) {calls : List Call}
    (addressable : ∀ call ∈ calls, call.Addressable) {n : Nat} (positive : 1 ≤ n) :
    let s := (new config).uses calls
    s.stepFor n = s.run n ∧
    (s.run n).2.map RuntimeError.fault = (s.run n).1.machine.fault ∧
    (∀ error, (s.run n).2 = some error →
      (∀ statement ∈ s.program.statements, statement.ip = error.fault.ip →
        error.line = statement.line) ∧
      ((∀ statement ∈ s.program.statements, statement.ip ≠ error.fault.ip) → error.line = 0)) ∧
    ∀ line word : Text, Text.fields line = [Text.ofString "s", word] →
      Literal.integer? 64 word = some (n : Int) →
        Debugger.execute ⟨s, n⟩ (.ofLine line) = Debugger.execute ⟨s, n⟩ (.ofLine "c") := by
  intro s
  have sound : s.Sound config := (sound_new config).uses addressable
  refine ⟨?_, ?_, fun error => sound.line_of_error, fun line word words number => ?_⟩
  · obtain ⟨k, rfl⟩ := Nat.exists_eq_add_of_le' positive
    exact sound.stepsFrom_eq_run none k
  · show (Option.map _ (s.run n).1.machine.fault).map _ = _
    rw [Option.map_map]
    exact Option.map_id'
  · rw [Debugger.ofLine_step words number]
    exact Debugger.execute_step_eq_execute_proceed sound positive

/-- Runs a word without an instruction, and then compiles a text that pops once too often, with a
blank line in it. -/
private def poppingTwice : List Call :=
  [.loadWords (some #[0xFF]), .run 3, .compile "push 5\n\npop\npop", .step]

attribute [local instance] Assembly.Expression.interpreter

/-- The second pop is on the fourth line, and both ways to it report that line. -/
theorem stepping_reports_like_running_popping :
    (∀ call ∈ poppingTwice, call.Addressable) ∧
    (((new {}).uses poppingTwice).stepFor 5).2 = some ⟨4, 2, 0x11, .stackEmpty⟩ ∧
    ((new {}).uses poppingTwice).stepFor 5 = ((new {}).uses poppingTwice).run 5 ∧
    Debugger.execute ⟨(new {}).uses poppingTwice, 5⟩ (.ofLine "s 5") =
      Debugger.execute ⟨(new {}).uses poppingTwice, 5⟩ (.ofLine "c") := by
  have addressable : ∀ call ∈ poppingTwice, call.Addressable := by
    simp [poppingTwice, Call.Addressable]
  obtain ⟨steps, -, -, commands⟩ :=
    stepping_reports_like_running {} addressable (n := 5) (by decide)
  have reported : (((new {}).uses poppingTwice).run 5).2 = some ⟨4, 2, 0x11, .stackEmpty⟩ := by
    decide +kernel
  refine ⟨addressable, ?_, steps, commands "s 5" "5" (by decide) (by decide)⟩
  exact (congrArg Prod.snd steps).trans reported

end Session

end StackMachine
