import StackMachine.Proofs.Machine.Symbolic

/-!
# Runs of the reference machine

A program is followed on the reference machine, instruction by instruction: its stack is a
list of integers, and every step is an instance of a rule. A machine whose words are
decoded to the program takes the same steps, with a cycle for each, and comes to the same
state. Once it has halted, or is about to fault, the rest of the budget does not matter.

## Main definitions

* `Reference.State.at`: a state that is about to execute an instruction of a program.
* `Reference.Steps`: a number of instructions of a program, executed one after the other.
* `Machine.Arrives`: a machine that has come to a state of the reference machine.

## Main results

* `Reference.Steps.trans`: steps one after the other; they can be written as a `calc` chain.
* `Machine.arrives_iterate`: a machine takes the steps of the reference machine.
* `Machine.run_of_halted`, `Machine.run_of_faulty`: where runs end.
-/

namespace StackMachine

namespace Reference

/-! ### Results -/

/-- A result that fits is not reduced. -/
theorem reduce_of_fits {result : Int} (lower : -2 ^ 31 ≤ result) (upper : result < 2 ^ 31) :
    reduce result = result :=
  Int.bmod_eq_of_le (by omega) (by omega)

theorem reduce_add_reduce (a b : Int) : reduce (a + reduce b) = reduce (a + b) :=
  Int.add_bmod_bmod

theorem reduce_mul_reduce (a b : Int) : reduce (a * reduce b) = reduce (a * b) :=
  Int.mul_bmod_bmod

/-! ### Steps -/

/-- The state that is about to execute the instruction at `k`, with a stack, top first. -/
def State.at (k : Nat) (stack data : List Int) (flags : Flags) : State where
  stack := stack
  data := data
  ip := k
  flags := flags
  halted := false

@[simp] theorem State.stack_at (k : Nat) (stack data : List Int) (flags : Flags) :
    (State.at k stack data flags).stack = stack :=
  rfl

@[simp] theorem State.data_at (k : Nat) (stack data : List Int) (flags : Flags) :
    (State.at k stack data flags).data = data :=
  rfl

/-- A number of instructions of a program, executed one after the other on a stack of at most
`limit` entries. -/
inductive Steps (limit : Int) (program : List Instr) : Nat → State → State → Prop
  | refl {r : State} : Steps limit program 0 r r
  | tail {n k : Nat} {op : Opcode} {operand : Int32} {r r' r'' : State}
      (earlier : Steps limit program n r r') (running : r'.halted = false) (place : r'.ip = k)
      (there : program[k]? = some (.ofOpcode op operand))
      (last : Step limit operand.toInt r' op r'') : Steps limit program (n + 1) r r''

namespace Steps

variable {limit : Int} {program : List Instr} {m n k target : Nat} {op : Opcode} {operand : Int32}
  {r r' r'' : State} {stack data : List Int} {flags : Flags}

theorem trans (h : Steps limit program n r r') (h' : Steps limit program m r' r'') :
    Steps limit program (n + m) r r'' := by
  induction h' with
  | refl => exact h
  | tail _ running place there last ih => exact .tail (ih h) running place there last

instance : Trans (Steps limit program n) (Steps limit program m) (Steps limit program (n + m)) where
  trans := trans

/-- There are as many data cells as before. -/
theorem length_data (steps : Steps limit program n r r') : r'.data.length = r.data.length := by
  induction steps with
  | refl => rfl
  | tail _ _ _ _ last ih => exact last.length_data.trans ih

/-- One instruction. -/
theorem single (there : program[k]? = some (.ofOpcode op operand))
    (done : Step limit operand.toInt (.at k stack data flags) op r) :
    Steps limit program 1 (.at k stack data flags) r :=
  .tail .refl rfl rfl there done

/-- A jump that is taken. -/
theorem jump (there : program[k]? = some (.ofOpcode op operand)) (jumps : op.isJump = true)
    (taken : flags.taken op = true) (leads : operand.toInt = target) :
    Steps limit program 1 (.at k stack data flags) (.at target stack data flags) := by
  have done : Step limit operand.toInt (.at k stack data flags) op _ := Machine.step_jump jumps
  have decided : (State.at k stack data flags).flags.taken op = true := taken
  have led : State.at target stack data flags =
      { State.at k stack data flags with ip := operand.toInt } := by
    rw [leads]
    rfl
  rw [decided] at done
  rw [led]
  exact single there done

/-- A jump that is not taken. -/
theorem pass (there : program[k]? = some (.ofOpcode op operand)) (jumps : op.isJump = true)
    (passes : flags.taken op = false) :
    Steps limit program 1 (.at k stack data flags) (.at (k + 1) stack data flags) := by
  have done : Step limit operand.toInt (.at k stack data flags) op _ := Machine.step_jump jumps
  have decided : (State.at k stack data flags).flags.taken op = false := passes
  rw [decided] at done
  exact single there done

/-- An entry is compared with a number that is pushed for it and goes again. -/
theorem test {pushed unused : Int32} {entry number : Int} {below : List Int}
    (there : program[k]? = some (.ofOpcode .push pushed))
    (behind : program[k + 1]? = some (.ofOpcode .cmp unused)) (stands : pushed.toInt = number)
    (room : ((entry :: below).length : Int) < limit) :
    Steps limit program 2 (.at k (entry :: below) data flags)
      (.at (k + 2) (entry :: below) data (flagsOf (entry - number))) := by
  rw [← stands]
  calc
    Steps limit program 1 _ (.at (k + 1) (pushed.toInt :: entry :: below) data flags) :=
      .single there (.push room)
    Steps limit program 1 _ (.at (k + 2) (entry :: below) data
        (flagsOf (entry - pushed.toInt))) := .single behind (.cmp rfl)

end Steps

end Reference

namespace Machine

open Reference (Step Steps)

/-- A machine has come from another one in `n` cycles, without a fault, and looks like a state of
the reference machine. -/
structure Arrives (m : Machine) (n : Nat) (r : Reference.State) (later : Machine) : Prop where
  view : later.view = r
  cycles : later.cycles = m.cycles + n
  fault : later.fault = m.fault
  image : later.image = m.image
  bound : later.stack.bound = m.stack.bound
  within : (later.stack.depth : Int) ≤ later.stack.bound

variable {m : Machine} {program : List Instr} {n k : Nat} {op : Opcode} {operand : Int32}
  {word : UInt32} {cause : FaultCause} {r : Reference.State}

/-- The instruction of a program at the instruction pointer is fetched. -/
theorem Executes.exists_word (executes : m.Executes program) (place : m.ip = k) {i : Instr}
    (there : program[k]? = some i) :
    ∃ word, m.fetch? = some word ∧ Instr.decode? word = some i := by
  have fetched := executes.fetch?
  have found : m.symbolic.fetch? program = some i := by
    rw [Symbolic.fetch?, if_neg (by show ¬ m.ip < 0; omega)]
    show program[m.ip.toNat]? = some i
    rw [place, Int.toNat_natCast, there]
  rw [found, Option.map_some] at fetched
  exact Option.map_eq_some_iff.mp fetched

/-- A machine takes a step of the reference machine. -/
theorem arrives_step (within : (m.stack.depth : Int) ≤ m.stack.bound) (running : m.halted = false)
    (fetch : m.fetch? = some word) (decodes : Instr.decode? word = some (.ofOpcode op operand))
    (outcome : Step m.stack.bound operand.toInt m.view op r) : m.Arrives 1 r m.step := by
  obtain ⟨next, performed, view⟩ :=
    (step_iff_perform (m := m.fetched word) within r).mp outcome
  have frame := frame_perform (m.fetched word) op operand
  rw [performed] at frame
  have stepped : m.step = next.record m.ip := by
    rw [step, advance_of_success running fetch decodes ((execute_ofOpcode _ _ _).trans performed)]
  have kept := within_perform (m := m.fetched word) within performed
  rw [stepped]
  exact ⟨view, congrArg (· + 1) frame.cycles, frame.fault, frame.image, frame.bound, kept⟩

/-- A machine with the words of a program takes the steps of the reference machine. -/
theorem arrives_iterate (executes : m.Executes program)
    (within : (m.stack.depth : Int) ≤ m.stack.bound)
    (steps : Steps m.stack.bound program n m.view r) : m.Arrives n r (step^[n] m) := by
  generalize start : m.view = origin at steps
  induction steps with
  | refl => exact ⟨start, rfl, rfl, rfl, rfl, within⟩
  | @tail n k op operand r r' r'' _ running place there last ih =>
    obtain ⟨view, cycles, fault, image, bound, within⟩ := ih start
    have code : (step^[n] m).Executes program := by
      rw [Executes, code, image]
      exact executes
    rw [← view] at running place last
    obtain ⟨word, fetch, decodes⟩ := code.exists_word place there
    rw [← bound] at last
    have next := arrives_step within running fetch decodes last
    rw [Function.iterate_succ_apply']
    exact ⟨next.view, by rw [next.cycles, cycles, Nat.add_assoc], next.fault.trans fault,
      next.image.trans image, next.bound.trans bound, next.within⟩

/-! ### Ends of runs -/

/-- A budget beyond the step that halts a machine is not used. -/
theorem run_of_halted {budget : Int} (halted : (step^[n] m).halted = true)
    (enough : n ≤ budget) : m.run budget = step^[n] m := by
  obtain ⟨further, rfl⟩ : ∃ further : Nat, budget = (further + n : Nat) :=
    ⟨(budget - n).toNat, by omega⟩
  rw [run_natCast, Function.iterate_add_apply]
  exact Function.iterate_fixed (step_of_halted halted) further

/-- A budget beyond a step that faults is not used. -/
theorem run_of_faulty {budget : Int} (running : (step^[n] m).halted = false)
    (fetch : (step^[n] m).fetch? = some word) (faulty : (step^[n] m).Faulty word cause)
    (enough : (n + 1 : Nat) ≤ budget) :
    m.run budget =
      { step^[n] m with
        halted := true
        fault := some ⟨(step^[n] m).ip, word, cause⟩
        current := Instr.describeWord word } := by
  have last := Function.iterate_succ_apply' step n m
  rw [step, advance_of_faulty running fetch faulty] at last
  rw [run_of_halted (by rw [last]) enough, last]

end Machine

end StackMachine
