import StackMachine.Proofs.Machine.Consistency

/-!
# Operations and builds

The operations on a machine are its calls and the execution of single instructions, which
need not be in its instruction memory. None of them changes how the machine is built: its
sizes, and how many entries its history has room for. A start takes nothing else from a
machine, so that machines of one build are the same after the same start.

## Main definitions

* `Machine.Operation`, `Machine.operate`: the operations and what some of them make of a machine.
* `Machine.reached`: the machines that operations lead to.
* `Machine.SameBuild`: two machines are built alike.

## Main results

* `Machine.sameBuild_operate`: operations keep the build.
* `Machine.SameBuild.load_eq`, `Machine.SameBuild.reset_eq`: starts of machines of one build.
-/

namespace StackMachine

theorem Ring.clear_eq_of_capacity_eq {α : Type} {a b : Ring α} (same : a.capacity = b.capacity) :
    a.clear = b.clear := by
  rw [clear, clear, same]

namespace Machine

/-! ### Operations -/

/-- A use of a machine: a call, or the execution of an instruction given to it. -/
inductive Operation where
  /-- Makes a call. -/
  | call (call : Call)
  /-- Executes an instruction at the instruction pointer, whatever the word there is. -/
  | execute (i : Instr)

namespace Operation

/-- What an operation makes of a machine. -/
def apply : Operation → Machine → Machine
  | call c, m => c.apply m
  | execute i, m => (m.execute i).1

/-- Whether an operation starts a run: it loads or resets the machine. -/
def starts : Operation → Bool
  | call (.load ..) | call (.loadWords ..) | call .reset => true
  | call .step | call (.run _) | call (.peek _) | call (.poke ..) | execute _ => false

/-- A start empties the stack and the history, and no cycle is counted yet. -/
theorem apply_of_starts {start : Operation} (starts : start.starts = true) (m : Machine) :
    (∃ limit, (start.apply m).stack = .empty limit) ∧ (start.apply m).cycles = 0 ∧
      (start.apply m).history = m.history.map Ring.clear := by
  cases start with
  | execute i => cases starts
  | call call =>
    cases call with
    | load | loadWords | reset => exact ⟨⟨_, rfl⟩, rfl, rfl⟩
    | step | run | peek | poke => cases starts

end Operation

/-- A machine after some operations, the first of which stands first. -/
def operate (m : Machine) (operations : List Operation) : Machine :=
  operations.foldl (fun m operation => operation.apply m) m

/-- A new machine of given sizes after some operations. -/
def reached (config : Config) (operations : List Operation) : Machine :=
  operate (new config) operations

/-! ### Builds -/

/-- Two machines have the same sizes, and both keep a history of the same capacity or none. -/
structure SameBuild (a b : Machine) : Prop where
  config : a.config = b.config
  history : a.history.map Ring.capacity = b.history.map Ring.capacity

namespace SameBuild

variable {a b c : Machine}

theorem refl (m : Machine) : SameBuild m m :=
  ⟨rfl, rfl⟩

theorem symm (h : SameBuild a b) : SameBuild b a :=
  ⟨h.config.symm, h.history.symm⟩

theorem trans (h : SameBuild a b) (h' : SameBuild b c) : SameBuild a c :=
  ⟨h.config.trans h'.config, h.history.trans h'.history⟩

/-- Histories of the same capacity are the same once they are cleared. -/
theorem clear_history (h : SameBuild a b) :
    a.history.map Ring.clear = b.history.map Ring.clear := by
  have same := h.history
  cases first : a.history with
  | none =>
    rw [first, Option.map_none, eq_comm, Option.map_eq_none_iff] at same
    rw [same]
  | some ring =>
    rw [first, Option.map_some, eq_comm, Option.map_eq_some_iff] at same
    obtain ⟨other, second, capacity⟩ := same
    rw [second, Option.map_some, Option.map_some, Ring.clear_eq_of_capacity_eq capacity]

/-- Machines of one build with the same instruction memory have the same start. -/
theorem reset_eq (h : SameBuild a b) (image : a.image = b.image) : a.reset = b.reset := by
  rw [reset, reset, h.config, h.clear_history, image]

/-- Machines of one build are the same once they are loaded with the same. -/
theorem load_eq (h : SameBuild a b) (image : Option (Array UInt32)) (values : List Int32)
    (start : Int) : a.load image values start = b.load image values start := by
  have same : SameBuild { a with image := image } { b with image := image } := ⟨h.config, h.history⟩
  rw [load, load, same.reset_eq rfl]

end SameBuild

/-! ### Operations keep the build -/

theorem sameBuild_reset (m : Machine) : SameBuild m.reset m where
  config := rfl
  history := by
    show (m.history.map Ring.clear).map Ring.capacity = _
    rw [Option.map_map]
    exact congrArg (m.history.map ·) (funext Ring.capacity_clear)

theorem sameBuild_load (m : Machine) (image : Option (Array UInt32)) (values : List Int32)
    (start : Int) : SameBuild (m.load image values start) m :=
  ⟨rfl, (sameBuild_reset { m with image := image }).history⟩

theorem Frame.sameBuild {m next : Machine} (h : Frame m next) : SameBuild next m :=
  ⟨h.config, congrArg _ h.history⟩

theorem sameBuild_record (m : Machine) (ip : Int) : SameBuild (m.record ip) m where
  config := rfl
  history := by
    show (m.history.map _).map Ring.capacity = _
    rw [Option.map_map]
    exact congrArg (m.history.map ·) (funext fun ring => ring.capacity_push _)

theorem sameBuild_advance (m : Machine) : SameBuild m.advance.1 m := by
  have kind := m.advance_kind
  generalize m.advance = result at kind
  cases kind with
  | halted | outside | fault => exact ⟨rfl, rfl⟩
  | @success word op operand next running fetch decodes performed =>
    have frame := frame_perform (m.fetched word) op operand
    rw [performed] at frame
    have kept : SameBuild next (m.fetched word) := frame.sameBuild
    exact (sameBuild_record next m.ip).trans ⟨kept.config, kept.history⟩

theorem sameBuild_poke (m : Machine) (address : Int) (value : Int32) :
    SameBuild ((m.poke address value).toOption.getD m) m := by
  unfold poke
  split
  · exact ⟨rfl, rfl⟩
  · exact .refl m

/-- A run keeps the build. -/
theorem sameBuild_run (m : Machine) (budget : Int) : SameBuild (m.run budget) m :=
  runFor_induction (fun next same => (sameBuild_advance next).trans same) budget.toNat (.refl m)

/-- An operation keeps the build. -/
theorem sameBuild_apply (operation : Operation) (m : Machine) :
    SameBuild (operation.apply m) m := by
  cases operation with
  | execute i => exact (frame_execute m i).sameBuild
  | call call =>
    cases call with
    | load program values start => exact sameBuild_load m _ values start
    | loadWords image values start => exact sameBuild_load m image values start
    | reset => exact sameBuild_reset m
    | step => exact sameBuild_advance m
    | run budget => exact sameBuild_run m budget
    | peek address => exact .refl m
    | poke address value => exact sameBuild_poke m address value

/-- Operations keep the build. -/
theorem sameBuild_operate (m : Machine) (operations : List Operation) :
    SameBuild (m.operate operations) m := by
  induction operations generalizing m with
  | nil => exact .refl m
  | cons operation rest ih => exact (ih (operation.apply m)).trans (sameBuild_apply operation m)

/-- All machines that operations lead to from one configuration are built alike. -/
theorem sameBuild_reached (config : Config) (first second : List Operation) :
    SameBuild (reached config first) (reached config second) :=
  (sameBuild_operate _ first).trans (sameBuild_operate _ second).symm

end Machine

end StackMachine
