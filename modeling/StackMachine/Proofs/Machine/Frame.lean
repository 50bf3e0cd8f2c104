import StackMachine.Machine.Execute

/-!
# What an instruction never touches

Executing an instruction works on the stack entries, the data memory, the instruction
pointer, the flags and the halted mark. All else stays, whether the instruction succeeds
or not, and is not even looked at.

## Main definitions

* `Machine.Frame`: two machines that differ at most in what instructions work on.
* `Machine.inFrame`: what instructions work on of one machine, and all else of another.

## Main results

* `Machine.frame_execute`: an instruction keeps the frame.
* `Machine.execute_inFrame`: an instruction does the same in every frame.
-/

namespace StackMachine

namespace Machine

/-- The second machine differs from the first at most in what instructions work on. -/
structure Frame (m next : Machine) : Prop where
  config : next.config = m.config
  image : next.image = m.image
  fault : next.fault = m.fault
  cycles : next.cycles = m.cycles
  current : next.current = m.current
  history : next.history = m.history
  limit : next.stack.limit = m.stack.limit
  used : m.stack.used = true → next.stack.used = true

theorem Frame.refl (m : Machine) : Frame m m := ⟨rfl, rfl, rfl, rfl, rfl, rfl, rfl, id⟩

theorem Frame.bound {m next : Machine} (h : Frame m next) : next.stack.bound = m.stack.bound := by
  rw [Stack.bound, Stack.bound, h.limit]

private theorem frame_actOnTwo (m : Machine) (op : Opcode) : Frame m (m.actOnTwo op).1 := by
  constructor <;> simp +contextual [actOnTwo, withResult, proceed, goTo]

private theorem frame_actOnOne (m : Machine) (op : Opcode) : Frame m (m.actOnOne op).1 := by
  constructor <;> simp +contextual [actOnOne, withResult, proceed, goTo]

private theorem frame_divide (m : Machine) : Frame m m.divide.1 := by
  simp only [divide]
  split
  · exact Frame.refl m
  · constructor <;> simp +contextual [withResult, proceed, goTo]

private theorem frame_loadCell (m : Machine) : Frame m m.loadCell.1 := by
  simp only [loadCell]
  split
  · exact Frame.refl m
  · constructor <;> simp +contextual [proceed, goTo]

private theorem frame_storeCell (m : Machine) : Frame m m.storeCell.1 := by
  simp only [storeCell]
  split
  · constructor <;> simp +contextual [proceed, goTo]
  · exact Frame.refl m

theorem frame_act (m : Machine) (op : Opcode) (operand : Int32) : Frame m (m.act op operand).1 := by
  cases op with
  | add | sub | mul | and | or | xor => exact frame_actOnTwo m _
  | not | inc | dec => exact frame_actOnOne m _
  | div => exact frame_divide m
  | load => exact frame_loadCell m
  | store => exact frame_storeCell m
  | jmp | jz | jnz | jl | jg | jle | jge =>
    simp only [act]
    split <;> exact ⟨rfl, rfl, rfl, rfl, rfl, rfl, rfl, id⟩
  | _ => constructor <;> simp +contextual [act, proceed, goTo]

theorem frame_perform (m : Machine) (op : Opcode) (operand : Int32) :
    Frame m (m.perform op operand).1 := by
  unfold perform
  split
  · exact Frame.refl m
  · split
    · exact Frame.refl m
    · exact frame_act m op operand

/-- An instruction keeps the frame, whether it succeeds or not. -/
theorem frame_execute (m : Machine) (i : Instr) : Frame m (m.execute i).1 := by
  unfold execute
  split
  · exact Frame.refl m
  · exact frame_perform m _ _

/-! ### Frames do not matter -/

/-- What instructions work on of a machine, in the frame of another. -/
def inFrame (m frame : Machine) : Machine :=
  { frame with stack := m.stack, data := m.data, ip := m.ip, flags := m.flags, halted := m.halted }

theorem stack_inFrame (m frame : Machine) : (m.inFrame frame).stack = m.stack :=
  rfl

/-- A machine that keeps the frame of another is in that frame. -/
theorem Frame.inFrame_eq {m next : Machine} (h : Frame m next) : next.inFrame m = next := by
  obtain ⟨config, image, fault, cycles, current, history, -, -⟩ := h
  rw [inFrame, ← config, ← image, ← fault, ← cycles, ← current, ← history]

private theorem divide_inFrame (m frame : Machine) :
    (m.inFrame frame).divide = (m.divide.1.inFrame frame, m.divide.2) := by
  by_cases zero : m.stack.peek = 0
  · simp only [divide, stack_inFrame, zero, if_true]
    rfl
  · simp only [divide, stack_inFrame, zero, if_false]
    rfl

private theorem loadCell_inFrame (m frame : Machine) :
    (m.inFrame frame).loadCell = (m.loadCell.1.inFrame frame, m.loadCell.2) := by
  have read : (m.inFrame frame).peek m.stack.peek.toInt = m.peek m.stack.peek.toInt := rfl
  rw [loadCell, loadCell, stack_inFrame, read]
  cases m.peek m.stack.peek.toInt <;> rfl

private theorem storeCell_inFrame (m frame : Machine) :
    (m.inFrame frame).storeCell = (m.storeCell.1.inFrame frame, m.storeCell.2) := by
  have cell : (m.inFrame frame).hasCell m.stack.peek.toInt = m.hasCell m.stack.peek.toInt := rfl
  simp only [storeCell, stack_inFrame, cell]
  cases m.hasCell m.stack.peek.toInt <;> rfl

theorem act_inFrame (m frame : Machine) (op : Opcode) (operand : Int32) :
    (m.inFrame frame).act op operand =
      ((m.act op operand).1.inFrame frame, (m.act op operand).2) := by
  cases op with
  | div => exact divide_inFrame m frame
  | load => exact loadCell_inFrame m frame
  | store => exact storeCell_inFrame m frame
  | jmp | jz | jnz | jl | jg | jle | jge =>
    have decided (op : Opcode) : (m.inFrame frame).flags.taken op = m.flags.taken op := rfl
    simp only [act, decided]
    cases m.flags.taken _ <;> rfl
  | _ => rfl

/-- An instruction does the same in every frame. -/
theorem execute_inFrame (m frame : Machine) (i : Instr) :
    (m.inFrame frame).execute i = ((m.execute i).1.inFrame frame, (m.execute i).2) := by
  unfold execute
  cases Opcode.ofTag? i.tag with
  | none => rfl
  | some op =>
    by_cases enough : m.stack.has op.entriesNeeded = true
    · by_cases full : (op.needsRoom && m.stack.isFull) = true
      · simp only [perform, stack_inFrame, enough, full, if_true]
        rfl
      · simp only [perform, stack_inFrame, enough, full]
        exact act_inFrame m frame op i.operand
    · simp only [perform, stack_inFrame, enough]
      rfl

end Machine

end StackMachine
