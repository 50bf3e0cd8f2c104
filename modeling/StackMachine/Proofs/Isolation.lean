import StackMachine.Assembly.Expression.Eval
import StackMachine.Proofs.Machine.Operations
import StackMachine.Proofs.Sessions

/-!
# Starts forget the past

Loading and resetting erase whatever a machine has done before: stack, flags, halted mark,
fault, cycles, data memory and the slots of the history are made anew. Two machines of one
configuration that are loaded with the same are therefore the same machine, however
different their pasts are, and cannot be told apart by anything that is done with both. A
session that is reset is back where it was when its program was installed.

## Main definitions

* `Session.Installs`: a session installs a program.
* `Session.Call.keepsStart`: the uses that leave alone what a program begins with.
* `Session.SameStart`: two sessions begin their programs alike.

## Main results

* `Session.SameStart.reset_eq`: sessions that begin alike are the same after a reset.
* `Session.sameStart_uses`: executing a program does not change how it begins.
* `start_forgets_past`: starts of machines and of sessions forget the past.
-/

namespace StackMachine

open Assembly (Interpreter)

namespace Session

/-! ### Installed programs -/

/-- The second session is the first with a program installed. -/
inductive Installs [Interpreter] (s : Session) : Session → Prop
  | load (program : Program) : Installs s (s.load program)
  | loadWords (words : Option (Array UInt32)) : Installs s (s.loadWords words)
  | compile {source : Text} {next : Session} (accepted : s.compile source = .ok next) :
      Installs s next

/-- Whether a use leaves alone what the program begins with. -/
def Call.keepsStart : Call → Bool
  | reset | step | run _ | poke .. => true
  | compile _ | loadWords _ | setData .. => false

/-! ### Beginning alike -/

/-- Two sessions have the same program, the same words and data to begin with, and machines of one
build. -/
structure SameStart (a b : Session) : Prop where
  program : a.program = b.program
  image : a.image = b.image
  data : a.data = b.data
  dataStart : a.dataStart = b.dataStart
  machine : a.machine.SameBuild b.machine

variable {s a b c : Session}

theorem SameStart.refl (s : Session) : SameStart s s :=
  ⟨rfl, rfl, rfl, rfl, .refl _⟩

theorem SameStart.trans (h : SameStart a b) (h' : SameStart b c) : SameStart a c where
  program := h.program.trans h'.program
  image := h.image.trans h'.image
  data := h.data.trans h'.data
  dataStart := h.dataStart.trans h'.dataStart
  machine := h.machine.trans h'.machine

/-- Sessions that begin alike are the same after a reset. -/
theorem SameStart.reset_eq (h : SameStart a b) : a.reset = b.reset := by
  obtain ⟨program, image, data, dataStart, machine⟩ := h
  rw [reset, reset, machine.load_eq, program, image, data, dataStart]

theorem sameStart_reset (s : Session) : SameStart s.reset s :=
  ⟨rfl, rfl, rfl, rfl, s.machine.sameBuild_load s.image s.data s.dataStart⟩

/-- A session with a program installed is at its start. -/
theorem Installs.reset_eq [Interpreter] {loaded : Session} (installs : Installs s loaded) :
    loaded.reset = loaded := by
  have again (t : Session) : t.reset.reset = t.reset := (sameStart_reset t).reset_eq
  cases installs with
  | load program => exact again _
  | loadWords words => exact again _
  | compile accepted =>
    obtain ⟨program, -, rfl⟩ := compile_eq_ok_iff.mp accepted
    exact again _

/-- A use of a session does not change how its machine is built. -/
theorem sameBuild_call [Interpreter] (s : Session) (call : Call) :
    (call.apply s).machine.SameBuild s.machine := by
  cases call with
  | compile source =>
    simp only [Call.apply, Session.compile]
    cases (s.assembler.parse source).2 with
    | error error => exact .refl _
    | ok p => exact s.machine.sameBuild_load (some p.image) s.data s.dataStart
  | loadWords words => exact s.machine.sameBuild_load words s.data s.dataStart
  | setData values start => exact .refl _
  | reset => exact s.machine.sameBuild_load s.image s.data s.dataStart
  | step => exact s.machine.sameBuild_advance
  | run budget => exact s.machine.sameBuild_run budget
  | poke address value =>
    have build := s.machine.sameBuild_poke address value
    simp only [Call.apply, Session.poke]
    cases poked : s.machine.poke address value with
    | error cause => exact .refl _
    | ok next =>
      rw [poked] at build
      exact build

theorem sameBuild_uses [Interpreter] (s : Session) (calls : List Call) :
    (s.uses calls).machine.SameBuild s.machine := by
  induction calls generalizing s with
  | nil => exact .refl _
  | cons call rest ih => exact (ih (call.apply s)).trans (sameBuild_call s call)

/-- Executing a program does not change how it begins. -/
theorem sameStart_apply [Interpreter] {call : Call} (keeps : call.keepsStart = true) (s : Session) :
    SameStart (call.apply s) s := by
  have build := s.sameBuild_call call
  cases call with
  | compile | loadWords | setData => cases keeps
  | reset | step | run => exact ⟨rfl, rfl, rfl, rfl, build⟩
  | poke address value =>
    simp only [Call.apply, poke] at build ⊢
    cases poked : s.machine.poke address value with
    | error cause => exact .refl s
    | ok next =>
      rw [poked] at build
      exact ⟨rfl, rfl, rfl, rfl, build⟩

theorem sameStart_uses [Interpreter] {calls : List Call}
    (keep : ∀ call ∈ calls, call.keepsStart = true) (s : Session) : SameStart (s.uses calls) s := by
  induction calls generalizing s with
  | nil => exact .refl s
  | cons call rest ih =>
    obtain ⟨first, others⟩ := List.forall_mem_cons.mp keep
    exact (ih others (call.apply s)).trans (sameStart_apply first s)

end Session

open Machine

/-- **Starts forget the past.** Two machines that any operations have led to from one configuration
are the same after the same load, so that all snapshots after further operations on both are the
same; and they are the same after a reset if their instruction memories are. A session with a
program installed, whatever steps and runs it takes and whatever is written to its data memory, is
the same again after a reset, and so a run from there leads to the same snapshot as a run right
after the program was installed. -/
theorem start_forgets_past [Interpreter] :
    (∀ (config : Config) (first second : List Operation) (image : Option (Array UInt32))
        (values : List Int32) (start : Int),
      let a := (reached config first).load image values start
      let b := (reached config second).load image values start
      a = b ∧ ∀ later, (a.operate later).snapshot = (b.operate later).snapshot) ∧
    (∀ (config : Config) (first second : List Operation),
      (reached config first).image = (reached config second).image →
        (reached config first).reset = (reached config second).reset) ∧
    ∀ (s loaded : Session) (calls : List Session.Call), s.Installs loaded →
      (∀ call ∈ calls, call.keepsStart = true) →
        (loaded.uses calls).reset = loaded ∧
        ∀ budget : Int, ((loaded.uses calls).reset.run budget).1.machine.snapshot =
          (loaded.run budget).1.machine.snapshot := by
  refine ⟨?_, ?_, ?_⟩
  · intro config first second image values start a b
    have same : a = b := (sameBuild_reached config first second).load_eq image values start
    exact ⟨same, fun later => by rw [same]⟩
  · intro config first second image
    exact (sameBuild_reached config first second).reset_eq image
  · intro s loaded calls installs keep
    have back : (loaded.uses calls).reset = loaded :=
      (Session.sameStart_uses keep loaded).reset_eq.trans installs.reset_eq
    exact ⟨back, fun budget => by rw [back]⟩

/-- A push, a duplication and three pops, the last of which finds an empty stack. -/
private def popper : Array UInt32 :=
  #[0x510, 0x12, 0x11, 0x11, 0x11]

/-- Runs into the fault, with a history that has gone around, and writes to data memory. -/
private def wearing : List Operation :=
  [.call (.loadWords (some popper) [7] 1), .call (.run 10), .call (.poke 0 9), .execute ⟨0x10, 3⟩]

attribute [local instance] Assembly.Expression.interpreter

/-- A machine that has faulted and one that was never used cannot be told apart after a load, and
a session forgets a fault and a poke in a reset. -/
theorem start_forgets_past_worn :
    (reached { traceDepth := 3 } wearing).fault = some ⟨4, 0x11, .stackEmpty⟩ ∧
    (reached { traceDepth := 3 } wearing).history.map Ring.start = some 1 ∧
    (reached { traceDepth := 3 } wearing).load (some #[0x99]) [1, 2] 0 =
      (reached { traceDepth := 3 } []).load (some #[0x99]) [1, 2] 0 ∧
    (reached { traceDepth := 3 } wearing).reset =
      (reached { traceDepth := 3 } [.call (.loadWords (some popper) [] 0)]).reset ∧
    ((((Session.new {}).loadWords (some popper)).uses [.run 10, .poke 0 9, .step]).reset.run
        3).1.machine.snapshot =
      (((Session.new {}).loadWords (some popper)).run 3).1.machine.snapshot := by
  obtain ⟨loads, resets, sessions⟩ := start_forgets_past
  have image : (reached { traceDepth := 3 } wearing).image =
      (reached { traceDepth := 3 } [.call (.loadWords (some popper) [] 0)]).image := by
    decide +kernel
  have keep : ∀ call ∈ [.run 10, .poke 0 9, .step], Session.Call.keepsStart call = true :=
    List.all_eq_true.mp rfl
  obtain ⟨-, again⟩ := sessions (Session.new {}) _ _ (.loadWords (some popper)) keep
  exact ⟨by decide +kernel, by decide +kernel, (loads _ wearing [] _ _ _).1, resets _ _ _ image,
    again 3⟩

end StackMachine
