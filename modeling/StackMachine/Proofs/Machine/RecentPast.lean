import Mathlib.Data.List.DropRight
import StackMachine.Machine.Snapshot
import StackMachine.Proofs.Machine.Budgets
import StackMachine.Proofs.Machine.Operations

/-!
# The history is the recent past

A machine that keeps a history remembers the last instructions that it has executed since
its start. Somebody who takes a snapshot before and after every step sees the same: the
text and the address of each instruction that succeeded, and the stack and the flags it
left. Steps that fault, that leave the program or that find the machine halted are not
remembered. Apart from the history, machines that remember more, less or nothing behave
alike.

## Main definitions

* `Observation`: what is told of an executed instruction.
* `Machine.succeeds`: whether the next step executes an instruction.
* `Machine.observed`: the instructions executed in some steps, as snapshots show them.
* `Machine.Recalls`: a history holds the last of some observations.
* `Machine.untraced`: a machine without its history.

## Main results

* `Machine.step_cases`: a step executes an instruction and remembers it, or does neither.
* `Machine.Recalls.step`, `Machine.Recalls.iterate`: what steps add to the history.
* `Machine.apply_untraced`: no operation depends on the history.
* `Machine.history_is_recent_past`: the history after any number of steps.
-/

namespace StackMachine

/-! ### Observations -/

/-- What is told of an executed instruction. -/
structure Observation where
  /-- The text of the instruction. -/
  command : String
  /-- The address that it was executed from. -/
  ip : Int
  /-- The stack afterwards, bottom first. -/
  stack : List Int32
  /-- The flags afterwards. -/
  flags : Flags
  deriving DecidableEq

/-- What the snapshots before and after a step tell of the instruction that it executed. -/
def Observation.between (before after : Snapshot) : Observation where
  command := after.current
  ip := before.ip
  stack := after.stack
  flags := after.flags

/-- A snapshot with an empty history. -/
def Snapshot.withoutHistory (s : Snapshot) : Snapshot :=
  { s with history := [] }

/-- What a history entry tells of its instruction. A stack that was never used has no entries. -/
def History.Entry.observation (e : History.Entry) : Observation where
  command := e.command
  ip := e.ip
  stack := e.stack.getD []
  flags := e.flags

/-! ### Stacks that were never used -/

/-- A stack that was never used is empty. -/
def Stack.Settled (s : Stack) : Prop :=
  s.used = false → s.items = []

theorem Stack.Settled.push {s : Stack} (h : s.Settled) (value : Int32) :
    (s.push value).Settled := by
  intro unused
  rw [used_push, Bool.or_eq_false_iff, Bool.not_eq_false'] at unused
  have full : s.push value = s := by simp [Stack.push, push?, unused.2]
  rw [full]
  exact h unused.1

theorem Stack.Settled.pop {s : Stack} (h : s.Settled) : s.pop.2.Settled := by
  intro unused
  rw [used_pop] at unused
  have empty : s.pop? = none := by
    unfold pop?
    split
    · rfl
    · rename_i items
      rw [h unused] at items
      cases items
  rw [Stack.pop, empty]
  exact h unused

namespace Machine

/-- An operation leaves a settled stack settled. -/
theorem settled_act {m : Machine} (h : m.stack.Settled) (op : Opcode) (operand : Int32) :
    (m.act op operand).1.stack.Settled := by
  cases op with
  | nop | halt => exact h
  | push => exact h.push operand
  | pop => exact h.pop
  | dup => exact h.push _
  | swap => exact (h.pop.pop.push _).push _
  | rot => exact ((h.pop.pop.pop.push _).push _).push _
  | add | sub | mul | and | or | xor => exact h.pop.pop.push _
  | not | inc | dec => exact h.pop.push _
  | cmp => exact h.pop
  | div =>
    simp only [act, divide]
    split
    · exact h
    · exact (h.pop.pop.push _).push _
  | load =>
    simp only [act, loadCell]
    split
    · exact h
    · exact h.pop.push _
  | store =>
    simp only [act, storeCell]
    split
    · exact h.pop.pop
    · exact h
  | jmp | jz | jnz | jl | jg | jle | jge =>
    simp only [act]
    split <;> exact h

theorem settled_perform {m : Machine} (h : m.stack.Settled) (op : Opcode) (operand : Int32) :
    (m.perform op operand).1.stack.Settled := by
  unfold perform
  split
  · exact h
  · split
    · exact h
    · exact settled_act h op operand

/-- On a settled stack, the entry for an instruction tells what snapshots show of it. -/
theorem observation_historyEntry {m : Machine} (settled : m.stack.Settled) (before : Machine) :
    (m.historyEntry before.ip).observation = .between before.snapshot m.snapshot := by
  have stack : (if m.stack.used then some m.stack.toList else none).getD [] = m.stack.toList := by
    cases used : m.stack.used with
    | true => rfl
    | false => simp [Stack.toList, settled used]
  simp [History.Entry.observation, historyEntry, Observation.between, snapshot, stack]

/-! ### Steps that are remembered -/

/-- Whether the next step executes an instruction: the machine runs, there is an instruction at its
instruction pointer, and nothing prevents its execution. -/
def succeeds (m : Machine) : Bool :=
  !m.halted && (m.fetch?.bind Instr.decode?).any fun i => (m.execute i).2.isNone

theorem succeeds_of_faulty {m : Machine} {word : UInt32} {cause : FaultCause}
    (fetch : m.fetch? = some word) (faulty : m.Faulty word cause) : m.succeeds = false := by
  cases faulty with
  | undecodable undefined => simp [succeeds, fetch, Instr.decode?_eq, undefined]
  | blocked found blocked =>
    simp [succeeds, fetch, decode?_of_ofTag? found, execute_ofOpcode,
      perform_eq_of_blocked blocked]

/-- A step executes an instruction, counts it and remembers it, or it does none of these. -/
theorem step_cases (m : Machine) :
    (m.succeeds = true ∧ (m.stack.Settled → m.step.stack.Settled) ∧
      m.step.cycles = m.cycles + 1 ∧
      m.step.history = m.history.map fun ring => ring.push (m.step.historyEntry m.ip)) ∨
    (m.succeeds = false ∧ m.step.stack = m.stack ∧ m.step.cycles = m.cycles ∧
      m.step.history = m.history) := by
  have kind := m.advance_kind
  unfold step
  generalize m.advance = result at kind
  cases kind with
  | halted stopped => exact .inr ⟨by simp [succeeds, stopped], rfl, rfl, rfl⟩
  | outside running fetch => exact .inr ⟨by simp [succeeds, fetch], rfl, rfl, rfl⟩
  | fault running fetch faulty => exact .inr ⟨succeeds_of_faulty fetch faulty, rfl, rfl, rfl⟩
  | @success word op operand next running fetch decodes performed =>
    have frame := frame_perform (m.fetched word) op operand
    have settled := @settled_perform (m.fetched word)
    have executed : (m.execute (.ofOpcode op operand)).2 = none := by
      have same := congrArg Prod.snd (execute_fetched m word (.ofOpcode op operand))
      rw [← same, execute_ofOpcode, performed]
    rw [performed] at frame
    refine .inl ⟨by simp [succeeds, running, fetch, decodes, executed], fun before => ?_,
      congrArg (· + 1) frame.cycles, ?_⟩
    · have after := settled before op operand
      rw [performed] at after
      exact after
    · exact congrArg (Option.map _) frame.history

/-! ### Runs -/

/-- The instructions executed in `k` steps, oldest first, as the snapshots between the steps show
them. -/
def observed (m : Machine) (k : Nat) : List Observation :=
  ((List.range k).filter fun j => (step^[j] m).succeeds).map fun j =>
    .between (step^[j] m).snapshot (step^[j + 1] m).snapshot

theorem observed_succ (m : Machine) (k : Nat) :
    m.observed (k + 1) = m.observed k ++
      if (step^[k] m).succeeds then
        [.between (step^[k] m).snapshot (step^[k + 1] m).snapshot] else [] := by
  rw [observed, List.range_succ, List.filter_append, List.map_append, ← observed]
  cases succeeds : (step^[k] m).succeeds <;> simp [succeeds]

/-- The history of a machine has room for `depth` entries and holds the last of some observations,
which are all that the machine has executed. -/
structure Recalls (depth : Nat) (log : List Observation) (m : Machine) : Prop where
  settled : m.stack.Settled
  counted : log.length = m.cycles
  kept : ∃ ring entries, m.history = some ring ∧ ring.capacity = depth ∧ ring.Window entries ∧
    entries.map History.Entry.observation = log

variable {m : Machine} {depth : Nat} {log : List Observation}

/-- A step adds the instruction that it executes, if it executes one. -/
theorem Recalls.step (recalls : m.Recalls depth log) :
    m.step.Recalls depth
      (log ++ if m.succeeds then [.between m.snapshot m.step.snapshot] else []) := by
  obtain ⟨settled, counted, ring, entries, history, capacity, window, told⟩ := recalls
  rcases m.step_cases with
    ⟨succeeds, settles, cycles, remembered⟩ | ⟨fails, stack, cycles, forgotten⟩
  · have after := settles settled
    rw [if_pos succeeds]
    refine ⟨after, by simp [counted, cycles], ring.push (m.step.historyEntry m.ip),
      entries ++ [m.step.historyEntry m.ip], ?_, ?_, window.push _, ?_⟩
    · rw [remembered, history, Option.map_some]
    · rw [Ring.capacity_push, capacity]
    · rw [List.map_append, told, List.map_singleton, observation_historyEntry after]
  · rw [if_neg (by simp [fails]), List.append_nil]
    exact ⟨stack ▸ settled, counted.trans cycles.symm, ring, entries, forgotten.trans history,
      capacity, window, told⟩

/-- After any number of steps a machine recalls what was observed. -/
theorem Recalls.iterate (recalls : m.Recalls depth []) (k : Nat) :
    (Machine.step^[k] m).Recalls depth (m.observed k) := by
  induction k with
  | zero => exact recalls
  | succ k ih =>
    rw [observed_succ, Function.iterate_succ_apply']
    exact ih.step

/-- The history of a machine is the last of what it recalls. -/
theorem Recalls.history_eq (recalls : m.Recalls depth log) :
    m.snapshot.history.map History.Entry.observation =
      log.rtake (min depth m.snapshot.cycles) := by
  obtain ⟨-, counted, ring, entries, history, capacity, window, told⟩ := recalls
  have shown : m.snapshot.history = ring.toList := by simp [snapshot, history]
  have length : entries.length = log.length := by rw [← told, List.length_map]
  rw [shown, window.toList_eq, capacity, List.map_drop, told, List.rtake, length]
  show log.drop _ = log.drop (log.length - min depth m.cycles)
  congr 1
  omega

/-- A new machine has a history of the depth asked for, or none. -/
theorem capacity_new (config : Config) :
    (new config).history.map Ring.capacity =
      if 0 < config.traceDepth then some config.traceDepth.toNat else none := by
  by_cases traced : 0 < config.traceDepth
  · have depth : config.normalize.traceDepth = config.traceDepth := if_neg (by omega)
    have least : max config.traceDepth.toNat 1 = config.traceDepth.toNat := by omega
    simp [new, reset, depth, traced, Ring.capacity, Ring.clear, Ring.new, least]
  · have depth : config.normalize.traceDepth ≤ 0 := by
      simp only [Config.normalize]
      split <;> omega
    simp [new, reset, traced, Int.not_lt.mpr depth]

/-- A machine at its start recalls nothing. -/
theorem recalls_start {config : Config} (traced : 0 < config.traceDepth)
    (same : SameBuild m (new config)) {start : Operation} (starts : start.starts = true) :
    (start.apply m).Recalls config.traceDepth.toNat [] := by
  obtain ⟨⟨limit, stack⟩, cycles, history⟩ := Operation.apply_of_starts starts m
  have capacity := same.history
  rw [capacity_new, if_pos traced] at capacity
  obtain ⟨ring, kept, room⟩ := Option.map_eq_some_iff.mp capacity
  refine ⟨fun _ => by rw [stack]; rfl, cycles.symm, ring.clear, [], ?_, ?_, ?_, rfl⟩
  · rw [history, kept, Option.map_some]
  · rw [Ring.capacity_clear, room]
  · exact .clear (by omega)

/-! ### Machines without a history -/

/-- The machine that keeps no history and is the same otherwise. -/
def untraced (m : Machine) : Machine :=
  { m with config := { m.config with traceDepth := 0 }, history := none }

theorem snapshot_untraced (m : Machine) : m.untraced.snapshot = m.snapshot.withoutHistory :=
  rfl

/-- An instruction neither reads nor writes the history. -/
theorem execute_untraced (m : Machine) (i : Instr) :
    m.untraced.execute i = ((m.execute i).1.untraced, (m.execute i).2) := by
  have kept : (m.execute i).1.inFrame m.untraced = (m.execute i).1.untraced :=
    congrArg untraced (frame_execute m i).inFrame_eq
  rw [← kept]
  exact execute_inFrame m m.untraced i

theorem step_untraced (m : Machine) : m.untraced.step = m.step.untraced := by
  cases running : m.halted with
  | true => rw [step_of_halted running, step_of_halted (m := m.untraced) running]
  | false =>
    rw [step, step]
    cases fetch : m.fetch? with
    | none =>
      rw [advance_of_outside running fetch, advance_of_outside (m := m.untraced) running fetch]
      rfl
    | some word =>
      cases decodes : Instr.decode? word with
      | none =>
        rw [advance_of_undecodable running fetch decodes,
          advance_of_undecodable (m := m.untraced) running fetch decodes]
        rfl
      | some i =>
        have executed := execute_untraced (m.fetched word) i
        rcases outcome : (m.fetched word).execute i with ⟨next, _ | cause⟩
        · rw [outcome] at executed
          rw [advance_of_success running fetch decodes outcome,
            advance_of_success (m := m.untraced) running fetch decodes executed]
          rfl
        · rw [outcome] at executed
          rw [advance_of_fault running fetch decodes outcome,
            advance_of_fault (m := m.untraced) running fetch decodes executed]
          rfl

theorem iterate_step_untraced (m : Machine) (k : Nat) :
    step^[k] m.untraced = (step^[k] m).untraced := by
  have commutes : Function.Semiconj untraced step step := fun m => m.step_untraced.symm
  exact (commutes.iterate_right k m).symm

/-- No operation depends on the history. -/
theorem apply_untraced (operation : Operation) (m : Machine) :
    operation.apply m.untraced = (operation.apply m).untraced := by
  cases operation with
  | execute i => exact congrArg Prod.fst (execute_untraced m i)
  | call call =>
    cases call with
    | load | loadWords | reset | peek => rfl
    | step => exact step_untraced m
    | run budget =>
      show m.untraced.run budget = (m.run budget).untraced
      rw [run, run, runFor_eq_iterate, runFor_eq_iterate, iterate_step_untraced]
    | poke address value =>
      have cell : m.untraced.hasCell address = m.hasCell address := rfl
      simp only [Operation.apply, Call.apply, poke, cell]
      cases m.hasCell address <;> rfl

theorem operate_untraced (m : Machine) (operations : List Operation) :
    m.untraced.operate operations = (m.operate operations).untraced := by
  induction operations generalizing m with
  | nil => rfl
  | cons operation rest ih =>
    show (operation.apply m.untraced).operate rest = ((operation.apply m).operate rest).untraced
    rw [apply_untraced, ih]

/-- Machines that are told to remember differently differ in the history only. -/
theorem untraced_reached (config : Config) (depth : Int) (operations : List Operation) :
    (reached { config with traceDepth := depth } operations).untraced =
      (reached config operations).untraced := by
  have same : (new { config with traceDepth := depth }).untraced = (new config).untraced := rfl
  rw [reached, reached, ← operate_untraced, ← operate_untraced, same]

/-! ### The history after any number of steps -/

/-- A step that faults, that leaves the program or that finds the machine halted is not
remembered. -/
theorem history_step_of_failure
    (failure : m.halted = true ∨ m.fetch? = none ∨
      ∃ word cause, m.fetch? = some word ∧ m.Faulty word cause) :
    m.step.snapshot.history = m.snapshot.history := by
  have fails : m.succeeds = false := by
    rcases failure with stopped | outside | ⟨word, cause, fetch, faulty⟩
    · simp [succeeds, stopped]
    · simp [succeeds, outside]
    · exact succeeds_of_faulty fetch faulty
  rcases m.step_cases with ⟨succeeds, -⟩ | ⟨-, -, -, kept⟩
  · rw [fails] at succeeds
    cases succeeds
  · rw [snapshot, snapshot, kept]

/-- **The history is the recent past.** Let a machine that keeps a history of some depth be loaded
or reset after any operations, and let it take any number of steps. Its history then tells, oldest
first, of the last instructions executed since the start, as many as the depth allows: the same that
the snapshots between the steps show, and there are as many of these as cycles. A step that faults,
leaves the program or finds the machine halted adds nothing. A machine with another depth that was
used in the same way shows the same but for its history, which is empty if the depth is not
positive. -/
theorem history_is_recent_past (config : Config) (traced : 0 < config.traceDepth)
    (operations : List Operation) (start : Operation) (starts : start.starts = true) (k : Nat) :
    let started := start.apply (reached config operations)
    let now := step^[k] started
    now.snapshot.history.map History.Entry.observation =
        (started.observed k).rtake (min config.traceDepth.toNat now.snapshot.cycles) ∧
      (started.observed k).length = now.snapshot.cycles ∧
      ((now.halted = true ∨ now.fetch? = none ∨
          ∃ word cause, now.fetch? = some word ∧ now.Faulty word cause) →
        now.step.snapshot.history = now.snapshot.history) ∧
      ∀ depth : Int,
        let other := step^[k] (start.apply (reached { config with traceDepth := depth } operations))
        other.snapshot.withoutHistory = now.snapshot.withoutHistory ∧
          (depth ≤ 0 → other.snapshot.history = []) := by
  intro started now
  have recalls : now.Recalls config.traceDepth.toNat (started.observed k) :=
    (recalls_start traced (sameBuild_operate _ operations) starts).iterate k
  refine ⟨recalls.history_eq, recalls.counted, history_step_of_failure, ?_⟩
  intro depth other
  constructor
  · have same : other.untraced = now.untraced := by
      rw [← iterate_step_untraced, ← iterate_step_untraced, ← apply_untraced, ← apply_untraced,
        untraced_reached]
    rw [← snapshot_untraced, ← snapshot_untraced, same]
  · intro off
    have stepped := sameBuild_run
      (start.apply (reached { config with traceDepth := depth } operations)) k
    rw [run_natCast] at stepped
    have build : SameBuild other (new { config with traceDepth := depth }) :=
      (stepped.trans (sameBuild_apply start _)).trans (sameBuild_operate _ operations)
    have forgetful := build.history
    rw [capacity_new, if_neg (Int.not_lt.mpr off), Option.map_eq_none_iff] at forgetful
    simp [snapshot, forgetful]

/-- Pushes five, doubles it, drops the result and drops once more, which is too often. -/
private def doubling : Operation :=
  .call (.loadWords (some #[0x510, 0x12, 0x01, 0x11, 0x11]) [] 0)

/-- A machine loaded after it has executed an instruction that was given to it. -/
private def doubled (depth : Int) : Machine :=
  doubling.apply (reached { traceDepth := depth } [.execute ⟨0x10, 7⟩])

/-- Of the four instructions executed the last two are remembered; the step that faults and the one
after it are not. -/
theorem history_is_recent_past_doubling :
    doubling.starts = true ∧ (step^[6] (doubled 2)).fault = some ⟨4, 0x11, .stackEmpty⟩ ∧
    (step^[6] (doubled 2)).snapshot.history.map History.Entry.observation =
      [⟨"ADD", 2, [10], {}⟩, ⟨"POP", 3, [], {}⟩] ∧
    (step^[7] (doubled 2)).snapshot.history = (step^[6] (doubled 2)).snapshot.history ∧
    (step^[6] (doubled 0)).snapshot.withoutHistory =
      (step^[6] (doubled 2)).snapshot.withoutHistory ∧
    (step^[6] (doubled 0)).snapshot.history = [] := by
  obtain ⟨history, -, nothing, others⟩ :=
    history_is_recent_past { traceDepth := 2 } (by decide) [.execute ⟨0x10, 7⟩] doubling rfl 6
  have cycles : (step^[6] (doubled 2)).snapshot.cycles = 4 := by decide +kernel
  have halted : (step^[6] (doubled 2)).halted = true := by decide +kernel
  have seen : (doubled 2).observed 6 =
      [⟨"PUSH 5", 0, [5], {}⟩, ⟨"DUP", 1, [5, 5], {}⟩, ⟨"ADD", 2, [10], {}⟩,
        ⟨"POP", 3, [], {}⟩] := by
    decide +kernel
  have told : (step^[6] (doubled 2)).snapshot.history.map History.Entry.observation =
      ((doubled 2).observed 6).rtake (min 2 4) := by
    rw [← cycles]
    exact history
  obtain ⟨same, forgetful⟩ := others 0
  refine ⟨rfl, by decide +kernel, ?_, nothing (.inl halted), same, forgetful (le_refl 0)⟩
  rw [told, seen]
  rfl

end Machine

end StackMachine
