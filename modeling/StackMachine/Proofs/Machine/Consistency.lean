import StackMachine.Program.Basic
import StackMachine.Proofs.Machine.Steps
import StackMachine.Proofs.Window

/-!
# Machines stay consistent

A machine is used by calls that load it, reset it, let it run and look into its data
memory. Whatever sizes were asked for and whatever calls were made, its parts fit
together: the memories have their sizes, a fault is about the word at the instruction
pointer, a machine that stopped without a fault has executed a halt or left its program,
and the history is as long as the number of cycles says.

## Main definitions

* `Machine.Call`, `Machine.Call.apply`: the calls and what they make of a machine.
* `Machine.after`: a machine after some calls.
* `Machine.Consistent`: the parts of a machine fit together.

## Main results

* `Machine.Consistent.advance`: a step keeps a machine consistent.
* `Machine.Consistent.apply`: so does every call.
* `Machine.consistent_after`: machines are consistent after all calls, and only loading changes
  the instruction memory.
-/

namespace StackMachine

/-! ### Sizes -/

namespace Config

variable (c : Config)

theorem dataSize_normalize_pos : 0 < c.normalize.dataSize := by
  simp only [normalize, default]
  split <;> omega

theorem stackLimit_normalize_pos : 0 < c.normalize.stackLimit := by
  simp only [normalize, default, Stack.defaultLimit]
  split <;> omega

end Config

namespace Machine

/-! ### Calls -/

/-- A use of a machine. -/
inductive Call where
  /-- Installs a program and initial data. -/
  | load (program : Program) (values : List Int32) (start : Int)
  /-- Installs an image and initial data. -/
  | loadWords (image : Option (Array UInt32)) (values : List Int32) (start : Int)
  /-- Goes back to the start. -/
  | reset
  /-- Executes one instruction. -/
  | step
  /-- Executes until the machine halts or the budget is spent. -/
  | run (budget : Int)
  /-- Reads a data cell. -/
  | peek (address : Int)
  /-- Writes a data cell. -/
  | poke (address : Int) (value : Int32)

namespace Call

/-- What a call makes of a machine. Reading changes nothing, and neither does writing to a cell
that does not exist. -/
def apply : Call → Machine → Machine
  | load program values start, m => m.load (some program.image) values start
  | loadWords image values start, m => m.load image values start
  | reset, m => m.reset
  | step, m => m.step
  | run budget, m => m.run budget
  | peek _, m => m
  | poke address value, m => (m.poke address value).toOption.getD m

/-- Whether a call installs an image. -/
def loads : Call → Bool
  | load .. | loadWords .. => true
  | reset | step | run _ | peek _ | poke .. => false

end Call

/-- A machine of given sizes after some calls, the first of which stands first. -/
def after (config : Config) (calls : List Call) : Machine :=
  calls.foldl (fun m call => call.apply m) (new config)

/-! ### The invariant -/

/-- The history of a machine that keeps `depth` entries, after some cycles: the last of as many
entries as there were cycles. -/
def Remembers (depth : Int) (cycles : Nat) : Option History → Prop
  | none => depth ≤ 0
  | some history => (history.capacity : Int) = depth ∧
      ∃ entries : List History.Entry, entries.length = cycles ∧ history.Window entries

/-- The parts of a machine fit together and have the sizes asked for. -/
structure Consistent (config : Config) (m : Machine) : Prop where
  /-- The sizes are the ones asked for, or the defaults. -/
  sizes : m.config = config.normalize
  /-- The stack knows its limit. -/
  limit : m.stack.limit = config.normalize.stackLimit
  /-- The stack is within its limit. -/
  within : (m.stack.depth : Int) ≤ config.normalize.stackLimit
  /-- Data memory has its size. -/
  cells : (m.data.size : Int) = config.normalize.dataSize
  /-- The instruction pointer is an operand or an address of the program or just behind it. -/
  pointer : -2 ^ 23 ≤ m.ip ∧ m.ip ≤ max (m.code.size : Int) (2 ^ 23 - 1)
  /-- A fault has stopped the machine at the word that it is about. -/
  faulted : ∀ fault, m.fault = some fault →
    m.halted = true ∧ 0 ≤ m.ip ∧ m.ip < m.code.size ∧ fault.ip = m.ip ∧
      m.code[m.ip.toNat]? = some fault.word
  /-- A machine that has stopped without a fault has just executed a halt, or is outside of its
  program. -/
  stopped : m.halted = true → m.fault = none →
    (m.current = Opcode.halt.mnemonic ∧ 0 < m.ip ∧
      ∃ word, m.code[(m.ip - 1).toNat]? = some word ∧ Instr.wordTag word = Opcode.halt.tag) ∨
    m.ip < 0 ∨ (m.code.size : Int) ≤ m.ip
  /-- The history holds the last of the instructions executed. -/
  remembers : Remembers config.normalize.traceDepth m.cycles m.history

variable {config : Config} {m : Machine}

theorem Consistent.bound (h : m.Consistent config) :
    m.stack.bound = config.normalize.stackLimit := by
  have positive := config.stackLimit_normalize_pos
  rw [Stack.bound, h.limit, if_neg (by omega)]

/-- A machine that runs has no fault. -/
theorem Consistent.fault_of_running (h : m.Consistent config) (running : m.halted = false) :
    m.fault = none := by
  cases recorded : m.fault with
  | none => rfl
  | some fault =>
    rw [(h.faulted fault recorded).1] at running
    cases running

/-! ### Starting -/

theorem size_place (cells : Array Int32) (start : Int) (n : Nat) (values : List Int32) :
    (place cells start n values).size = cells.size := by
  induction values generalizing cells n with
  | nil => rfl
  | cons value rest ih =>
    rw [place, ih]
    split
    · exact Array.size_setIfInBounds
    · rfl

theorem Remembers.clear {depth : Int} {cycles : Nat} {history : Option History}
    (h : Remembers depth cycles history) : Remembers depth 0 (history.map Ring.clear) := by
  cases history with
  | none => exact h
  | some ring =>
    obtain ⟨sized, entries, -, window⟩ := h
    exact ⟨by rw [Ring.capacity_clear, sized], [], rfl, .clear window.sized⟩

/-- A machine at its start is consistent, whatever its image and its data are. -/
theorem consistent_start (sizes : m.config = config.normalize) {cycles : Nat}
    (remembers : Remembers config.normalize.traceDepth cycles m.history) {data : Array Int32}
    (sized : data.size = m.reset.data.size) : Consistent config { m.reset with data := data } where
  sizes := sizes
  limit := congrArg Config.stackLimit sizes
  within := by
    have positive := config.stackLimit_normalize_pos
    show ((0 : Nat) : Int) ≤ _
    omega
  cells := by
    have positive := config.dataSize_normalize_pos
    simp only [sized, reset, Array.size_replicate, sizes]
    omega
  pointer := by
    show -2 ^ 23 ≤ (0 : Int) ∧ (0 : Int) ≤ _
    omega
  faulted := by
    intro fault h
    cases h
  stopped := by
    intro h
    cases h
  remembers := remembers.clear

theorem remembers_new (config : Config) :
    Remembers config.normalize.traceDepth 0
      (if 0 < config.normalize.traceDepth then
        some (Ring.new config.normalize.traceDepth.toNat) else none) := by
  split
  · refine ⟨?_, [], rfl, Ring.Window.new _⟩
    simp only [Ring.capacity, Ring.new, Array.size_replicate]
    omega
  · exact Int.not_lt.mp (by assumption)

theorem consistent_reset (sizes : m.config = config.normalize) {cycles : Nat}
    (remembers : Remembers config.normalize.traceDepth cycles m.history) :
    m.reset.Consistent config :=
  consistent_start sizes remembers rfl

theorem consistent_new (config : Config) : (new config).Consistent config :=
  consistent_reset rfl (remembers_new config)

theorem Consistent.load (h : m.Consistent config) (image : Option (Array UInt32))
    (values : List Int32) (start : Int) : (m.load image values start).Consistent config :=
  consistent_start (m := { m with image := image }) h.sizes h.remembers (size_place _ _ _ _)

/-! ### Running -/

theorem Remembers.record {depth : Int} {cycles : Nat} {history : Option History}
    (h : Remembers depth cycles history) (entry : History.Entry) :
    Remembers depth (cycles + 1) (history.map fun ring => ring.push entry) := by
  cases history with
  | none => exact h
  | some ring =>
    obtain ⟨sized, entries, rfl, window⟩ := h
    exact ⟨by rw [Ring.capacity_push, sized], entries ++ [entry], by simp, window.push entry⟩

theorem halt_of_decode? {word : UInt32} {operand : Int32}
    (h : Instr.decode? word = some (.ofOpcode .halt operand)) :
    Instr.wordTag word = Opcode.halt.tag ∧
      Instr.describeWord word = Opcode.halt.mnemonic := by
  obtain ⟨op, found, same⟩ := Instr.exists_of_decode? h
  have tag : op.tag = Opcode.halt.tag := congrArg Instr.tag same
  constructor
  · rw [← tag]
    exact (Opcode.ofTag?_eq_some_iff.mp found).symm
  · rw [Instr.describeWord, h]
    simp [Instr.text, Instr.ofOpcode, Opcode.takesOperand]

section Success

variable {word : UInt32} {op : Opcode} {operand : Int32} {next : Machine}

/-- An instruction executed keeps a machine consistent. -/
theorem Consistent.record (h : m.Consistent config) (running : m.halted = false)
    (fetch : m.fetch? = some word) (decodes : Instr.decode? word = some (.ofOpcode op operand))
    (performed : (m.fetched word).perform op operand = (next, none)) :
    (next.record m.ip).Consistent config := by
  have frame := frame_perform (m.fetched word) op operand
  rw [performed] at frame
  have room : ((m.fetched word).stack.depth : Int) ≤ (m.fetched word).stack.bound := by
    show (m.stack.depth : Int) ≤ m.stack.bound
    rw [h.bound]
    exact h.within
  have outcome := (step_iff_perform room next.view).2 ⟨next, performed, rfl⟩
  have code : next.code = m.code := by rw [Machine.code, frame.image, Machine.code]; rfl
  obtain ⟨lower, inside, found⟩ := inside_of_fetch? fetch
  have unharmed : next.fault = none := frame.fault.trans (h.fault_of_running running)
  refine ⟨frame.config.trans h.sizes, frame.limit.trans h.limit, ?_, ?_, ?_, ?_, ?_, ?_⟩
  · have bound := within_perform room performed
    rw [frame.bound] at bound
    exact bound.trans (le_of_eq h.bound)
  · have cells : next.data.size = m.data.size := by
      simpa [view, fetched] using outcome.length_data
    exact (congrArg Nat.cast cells).trans h.cells
  · show -2 ^ 23 ≤ next.ip ∧ next.ip ≤ max (next.code.size : Int) (2 ^ 23 - 1)
    obtain ⟨least, greatest⟩ := operand_bounds decodes
    simp only [Instr.operandMin, Instr.operandMax] at least greatest
    rw [code]
    rcases outcome.ip_eq with
      (further : next.ip = m.ip + 1) | ⟨-, (jumped : next.ip = operand.toInt)⟩
    · omega
    · omega
  · intro fault (recorded : next.fault = some fault)
    rw [unharmed] at recorded
    cases recorded
  · intro (stopped : next.halted = true) _
    left
    have halts : op = .halt := by
      have halted := outcome.halted_eq
      simp only [view, fetched, running, stopped, Bool.false_or] at halted
      exact of_decide_eq_true halted.symm
    subst halts
    obtain ⟨tag, text⟩ := halt_of_decode? decodes
    have further : next.ip = m.ip + 1 := by
      rcases outcome.ip_eq with further | ⟨jump, -⟩
      · exact further
      · cases jump
    show next.current = _ ∧ 0 < next.ip ∧ ∃ word, next.code[(next.ip - 1).toNat]? = _ ∧ _
    rw [code, further, Int.add_sub_cancel]
    exact ⟨frame.current.trans text, by omega, word, found, tag⟩
  · show Remembers _ (next.cycles + 1) (next.history.map _)
    rw [frame.cycles, frame.history]
    exact h.remembers.record _

end Success

/-- A step keeps a machine consistent. -/
theorem Consistent.advance (h : m.Consistent config) : m.advance.1.Consistent config := by
  have kind := m.advance_kind
  generalize m.advance = result at kind
  cases kind with
  | halted stopped => exact h
  | outside running fetch =>
    refine { h with faulted := ?_, stopped := ?_ }
    · intro fault recorded
      exact ⟨rfl, (h.faulted fault recorded).2⟩
    · intro _ _
      exact .inr (outside_of_fetch? fetch)
  | fault running fetch faulty =>
    obtain ⟨lower, inside, found⟩ := inside_of_fetch? fetch
    refine { h with faulted := ?_, stopped := ?_ }
    · intro fault recorded
      cases recorded
      exact ⟨rfl, lower, inside, rfl, found⟩
    · intro _ recorded
      cases recorded
  | success running fetch decodes performed => exact h.record running fetch decodes performed

/-! ### Calls -/

theorem Consistent.poke (h : m.Consistent config) (address : Int) (value : Int32) :
    ((m.poke address value).toOption.getD m).Consistent config := by
  unfold Machine.poke
  split
  · have cells : (m.data.setIfInBounds address.toNat value).size = m.data.size :=
      Array.size_setIfInBounds
    exact { h with cells := (congrArg Nat.cast cells).trans h.cells }
  · exact h

/-- A call keeps a machine consistent. -/
theorem Consistent.apply (h : m.Consistent config) (call : Call) :
    (call.apply m).Consistent config := by
  cases call with
  | load program values start => exact h.load _ values start
  | loadWords image values start => exact h.load image values start
  | reset => exact consistent_reset h.sizes h.remembers
  | step => exact h.advance
  | run budget => exact runFor_induction (fun _ => Consistent.advance) budget.toNat h
  | peek address => exact h
  | poke address value => exact h.poke address value

/-- A step keeps the instruction memory. -/
theorem image_advance (m : Machine) : m.advance.1.image = m.image := by
  have kind := m.advance_kind
  generalize m.advance = result at kind
  cases kind with
  | halted | outside | fault => rfl
  | @success word op operand next running fetch decodes performed =>
    have frame := frame_perform (m.fetched word) op operand
    rw [performed] at frame
    exact frame.image

/-- A call that does not load keeps the instruction memory. -/
theorem image_apply (m : Machine) {call : Call} (h : call.loads = false) :
    (call.apply m).image = m.image := by
  cases call with
  | load | loadWords => cases h
  | reset | peek => rfl
  | step => exact m.image_advance
  | run budget =>
    have kept (next : Machine) (same : next.image = m.image) : next.advance.1.image = m.image :=
      next.image_advance.trans same
    exact runFor_induction kept budget.toNat rfl
  | poke address value =>
    simp only [Call.apply, poke]
    split <;> rfl

theorem consistent_foldl (h : m.Consistent config) (calls : List Call) :
    (calls.foldl (fun m call => call.apply m) m).Consistent config := by
  induction calls generalizing m with
  | nil => exact h
  | cons call rest ih => exact ih (h.apply call)

/-- The number of entries of a history that is kept. -/
theorem Remembers.length_toList {depth : Int} {cycles : Nat} {history : Option History}
    (h : Remembers depth cycles history) (traced : 0 < depth) :
    ∃ ring, history = some ring ∧ (ring.toList.length : Int) = min (cycles : Int) depth := by
  cases history with
  | none => exact absurd h (Int.not_le.mpr traced)
  | some ring =>
    obtain ⟨sized, entries, rfl, window⟩ := h
    refine ⟨ring, rfl, ?_⟩
    rw [window.length_toList]
    omega

/-- **Machines stay consistent.** For all sizes asked for and all calls made, the parts of the
machine fit together, a history that is kept has as many entries as there were cycles or as it can
hold, and a further call changes the instruction memory only by loading. -/
theorem consistent_after (config : Config) (calls : List Call) :
    (after config calls).Consistent config ∧
    (0 < config.normalize.traceDepth → ∃ ring, (after config calls).history = some ring ∧
      (ring.toList.length : Int) =
        min ((after config calls).cycles : Int) config.normalize.traceDepth) ∧
    ∀ call : Call, call.loads = false →
      (call.apply (after config calls)).image = (after config calls).image := by
  have consistent := consistent_foldl (consistent_new config) calls
  exact ⟨consistent, consistent.remembers.length_toList, fun _ => image_apply _⟩

/-- A machine with one data cell that keeps one history entry. -/
private def small : Config :=
  { dataSize := 1, traceDepth := 1 }

/-- A load from a cell that does not exist, behind a push and a no-operation. -/
private def loading : List Call :=
  [.loadWords (some #[0x510, 0x00, 0x20]) [7] 0, .run 10, .poke 0 8]

/-- The machine stops at the load, after two cycles of which it remembers one. -/
theorem consistent_after_loading :
    (after small loading).fault = some ⟨2, 0x20, .badAddress 5⟩ ∧ (after small loading).cycles = 2 ∧
    (after small loading).Consistent small ∧
    (∃ ring, (after small loading).history = some ring ∧ (ring.toList.length : Int) = 1) ∧
    (Call.apply .reset (after small loading)).image = some #[0x510, 0x00, 0x20] := by
  obtain ⟨consistent, traced, kept⟩ := consistent_after small loading
  have cycles : (after small loading).cycles = 2 := by decide
  obtain ⟨ring, history, length⟩ := traced (by decide)
  rw [cycles] at length
  refine ⟨by decide +kernel, cycles, consistent, ⟨ring, history, length⟩, ?_⟩
  rw [kept .reset rfl]
  decide

end Machine

end StackMachine
