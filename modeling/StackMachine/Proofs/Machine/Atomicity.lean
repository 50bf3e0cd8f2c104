import StackMachine.Machine.Run
import StackMachine.Proofs.Machine.Frame

/-!
# Faults are atomic

An instruction that cannot be executed leaves the machine as it was, although its effect
is computed by popping and pushing in place: every check stands before the first change.
A step that faults therefore changes three things only: the machine has halted, the fault
is recorded, and the current instruction is the one that faulted.

## Main definitions

* `Machine.Blocked`: why an operation cannot be executed on a machine.
* `Machine.Faulty`: why the instruction word at the instruction pointer cannot be executed.

## Main results

* `Machine.perform_eq_of_blocked`, `Machine.blocked_of_perform`: an operation faults exactly if
  it is blocked, and then changes nothing.
* `Machine.faults_change_nothing_else`: what a faulting instruction and a faulting step change.
-/

namespace StackMachine

namespace Machine

/-- An operation cannot be executed on a machine, and why. -/
inductive Blocked (m : Machine) (op : Opcode) : FaultCause → Prop
  | underflow (few : m.stack.depth < op.entriesNeeded) : Blocked m op .stackEmpty
  | overflow (enough : op.entriesNeeded ≤ m.stack.depth) (grows : op.needsRoom = true)
      (full : m.stack.bound ≤ m.stack.depth) : Blocked m op .stackFull
  | zeroDivisor (rest : List Int32) (hop : op = .div) (enough : op.entriesNeeded ≤ m.stack.depth)
      (top : m.stack.items = 0 :: rest) : Blocked m op .divideByZero
  | noCell (address : Int32) (rest : List Int32) (hop : op = .load ∨ op = .store)
      (enough : op.entriesNeeded ≤ m.stack.depth) (top : m.stack.items = address :: rest)
      (outside : address.toInt < 0 ∨ (m.data.size : Int) ≤ address.toInt) :
      Blocked m op (.badAddress address.toInt)

/-- The instruction word at the instruction pointer cannot be executed, and why. -/
inductive Faulty (m : Machine) (word : UInt32) : FaultCause → Prop
  | undecodable (h : Opcode.ofTag? (Instr.wordTag word) = none) : Faulty m word (.badOpcode word)
  | blocked {op : Opcode} {cause : FaultCause}
      (decodes : Opcode.ofTag? (Instr.wordTag word) = some op) (h : m.Blocked op cause) :
      Faulty m word cause

variable {m next : Machine} {op : Opcode} {operand : Int32} {cause : FaultCause}

/-! ### Operations -/

@[simp] theorem refuse_eq (m : Machine) (cause : FaultCause) : m.refuse cause = (m, some cause) :=
  rfl

@[simp] theorem goTo_eq (m : Machine) (address : Int) :
    m.goTo address = ({ m with ip := address }, none) :=
  rfl

@[simp] theorem proceed_eq (m : Machine) : m.proceed = ({ m with ip := m.ip + 1 }, none) :=
  rfl

theorem hasCell_eq_true_iff (m : Machine) (address : Int) :
    m.hasCell address = true ↔ 0 ≤ address ∧ address < m.data.size := by
  simp [hasCell]

theorem hasCell_eq_false_iff (m : Machine) (address : Int) :
    m.hasCell address = false ↔ address < 0 ∨ (m.data.size : Int) ≤ address := by
  rw [← Bool.not_eq_true, hasCell_eq_true_iff]
  omega

/-- Where the stack allows an operation, its effect is that of the operation proper. -/
theorem perform_eq_act (enough : op.entriesNeeded ≤ m.stack.depth)
    (room : op.needsRoom = true → (m.stack.depth : Int) < m.stack.bound) :
    m.perform op operand = m.act op operand := by
  have hhas : m.stack.has op.entriesNeeded = true := (m.stack.has_iff _).2 (by omega)
  have hroom : (op.needsRoom && m.stack.isFull) = false := by
    cases hgrows : op.needsRoom with
    | false => rfl
    | true => simpa using m.stack.isFull_eq_false_iff.2 (room hgrows)
  simp [perform, hhas, hroom]

/-- A blocked operation changes nothing. -/
theorem perform_eq_of_blocked (h : m.Blocked op cause) :
    m.perform op operand = (m, some cause) := by
  cases h with
  | underflow few =>
    have hhas : m.stack.has op.entriesNeeded = false := by
      rw [← Bool.not_eq_true, Stack.has_iff]
      omega
    simp [perform, hhas]
  | overflow enough grows full =>
    have hhas : m.stack.has op.entriesNeeded = true := (m.stack.has_iff _).2 (by omega)
    have hfull : m.stack.isFull = true := by
      simpa [Stack.isFull] using full
    simp [perform, hhas, grows, hfull]
  | zeroDivisor rest hop enough top =>
    subst hop
    rw [perform_eq_act enough (by simp [Opcode.needsRoom])]
    simp [act, divide, Stack.peek_of_items top]
  | noCell address rest hop enough top outside =>
    have hcell : m.hasCell address.toInt = false := (m.hasCell_eq_false_iff _).2 outside
    rcases hop with rfl | rfl
    · rw [perform_eq_act enough (by simp [Opcode.needsRoom])]
      simp [act, loadCell, peek, Stack.peek_of_items top, hcell]
    · rw [perform_eq_act enough (by simp [Opcode.needsRoom])]
      simp [act, storeCell, Stack.peek_of_items top, hcell]

/-- An operation that the stack allows faults on a zero divisor and on a missing cell only. -/
private theorem blocked_of_act (enough : op.entriesNeeded ≤ m.stack.depth)
    (h : m.act op operand = (next, some cause)) : m.Blocked op cause := by
  cases op with
  | div =>
    obtain ⟨b, rest, hitems⟩ := Stack.exists_items_of_one_le
      (Nat.le_trans (by decide) enough)
    simp only [act, divide, Stack.peek_of_items hitems] at h
    split at h
    · rename_i hb
      cases h
      exact .zeroDivisor rest rfl enough (hb ▸ hitems)
    · simp at h
  | load =>
    obtain ⟨address, rest, hitems⟩ := Stack.exists_items_of_one_le enough
    simp only [act, loadCell, peek, Stack.peek_of_items hitems] at h
    cases hcell : m.hasCell address.toInt with
    | true => simp [hcell] at h
    | false =>
      simp only [hcell, Bool.false_eq_true, if_false, refuse_eq, Prod.mk.injEq,
        Option.some.injEq] at h
      obtain ⟨-, rfl⟩ := h
      exact .noCell address rest (.inl rfl) enough hitems ((m.hasCell_eq_false_iff _).1 hcell)
  | store =>
    obtain ⟨address, rest, hitems⟩ := Stack.exists_items_of_one_le
      (Nat.le_trans (by decide) enough)
    simp only [act, storeCell, Stack.peek_of_items hitems] at h
    cases hcell : m.hasCell address.toInt with
    | true => simp [hcell] at h
    | false =>
      simp only [hcell, Bool.false_eq_true, if_false, refuse_eq, Prod.mk.injEq,
        Option.some.injEq] at h
      obtain ⟨-, rfl⟩ := h
      exact .noCell address rest (.inr rfl) enough hitems ((m.hasCell_eq_false_iff _).1 hcell)
  | jmp | jz | jnz | jl | jg | jle | jge =>
    simp only [act] at h
    split at h <;> simp at h
  | _ => simp [act, actOnTwo, actOnOne] at h

/-- An operation faults only if it is blocked. -/
theorem blocked_of_perform (h : m.perform op operand = (next, some cause)) :
    m.Blocked op cause := by
  by_cases enough : op.entriesNeeded ≤ m.stack.depth
  · by_cases room : op.needsRoom = true → (m.stack.depth : Int) < m.stack.bound
    · exact blocked_of_act enough (perform_eq_act enough room ▸ h)
    · obtain ⟨grows, full⟩ := Classical.not_imp.1 room
      have hb : m.Blocked op .stackFull := .overflow enough grows (Int.not_lt.1 full)
      rw [perform_eq_of_blocked hb] at h
      cases h
      exact hb
  · have hb : m.Blocked op .stackEmpty := .underflow (Nat.not_le.1 enough)
    rw [perform_eq_of_blocked hb] at h
    cases h
    exact hb

/-- An instruction that faults leaves the machine as it was. -/
theorem execute_fault_unchanged {i : Instr} (h : (m.execute i).2 = some cause) :
    (m.execute i).1 = m := by
  unfold execute at h ⊢
  cases hop : Opcode.ofTag? i.tag with
  | none => rfl
  | some op =>
    simp only [hop] at h ⊢
    have hb := blocked_of_perform (Prod.ext rfl h)
    rw [perform_eq_of_blocked hb]

/-! ### Steps -/

/-- A fetched instruction does what it does when it is given to the machine. -/
theorem execute_fetched (m : Machine) (word : UInt32) (i : Instr) :
    (m.fetched word).execute i =
      ((m.execute i).1.inFrame (m.fetched word), (m.execute i).2) :=
  execute_inFrame m (m.fetched word) i

/-- Fetching an instruction frees no operation. -/
private theorem Blocked.fetched (h : m.Blocked op cause) (word : UInt32) :
    (m.fetched word).Blocked op cause := by
  cases h with
  | underflow few => exact .underflow few
  | overflow enough grows full => exact .overflow enough grows full
  | zeroDivisor rest hop enough top => exact .zeroDivisor rest hop enough top
  | noCell address rest hop enough top outside =>
    exact .noCell address rest hop enough top outside

/-- Fetching an instruction blocks no operation. -/
theorem Blocked.of_fetched {word : UInt32} (h : (m.fetched word).Blocked op cause) :
    m.Blocked op cause := by
  cases h with
  | underflow few => exact .underflow few
  | overflow enough grows full => exact .overflow enough grows full
  | zeroDivisor rest hop enough top => exact .zeroDivisor rest hop enough top
  | noCell address rest hop enough top outside =>
    exact .noCell address rest hop enough top outside

theorem decode?_of_ofTag? {word : UInt32}
    (h : Opcode.ofTag? (Instr.wordTag word) = some op) :
    Instr.decode? word =
      some (.ofOpcode op (if op.takesOperand then Instr.wordOperand word else 0)) := by
  simp [Instr.decode?_eq, h]

theorem execute_of_ofTag? {i : Instr} (hop : Opcode.ofTag? i.tag = some op) :
    m.execute i = m.perform op i.operand := by
  rw [execute, hop]

theorem execute_ofOpcode (m : Machine) (op : Opcode) (operand : Int32) :
    m.execute (.ofOpcode op operand) = m.perform op operand := by
  simp [execute, Instr.ofOpcode, Opcode.ofTag?_tag]

/-- A faulting step halts the machine, records the fault and shows the instruction. -/
theorem advance_of_faulty {word : UInt32} (running : m.halted = false)
    (fetch : m.fetch? = some word) (h : m.Faulty word cause) :
    m.advance =
      ({ m with
          halted := true
          fault := some ⟨m.ip, word, cause⟩
          current := Instr.describeWord word }, false) := by
  cases h with
  | undecodable hop =>
    exact advance_of_undecodable running fetch (by simp [Instr.decode?_eq, hop])
  | @blocked op _ hop hb =>
    have hexec (operand : Int32) :
        (m.fetched word).execute (.ofOpcode op operand) = (m.fetched word, some cause) := by
      rw [execute_ofOpcode, perform_eq_of_blocked (hb.fetched word)]
    exact advance_of_fault running fetch (decode?_of_ofTag? hop) (hexec _)

/-- A step that changes the fault of the machine is a faulting one. -/
theorem faulty_of_fault_ne (h : m.advance.1.fault ≠ m.fault) :
    m.halted = false ∧ ∃ word cause, m.fetch? = some word ∧ m.Faulty word cause := by
  cases running : m.halted with
  | true => exact absurd (by rw [advance_of_halted running]) h
  | false =>
    refine ⟨rfl, ?_⟩
    cases fetch : m.fetch? with
    | none => exact absurd (by rw [advance_of_outside running fetch]) h
    | some word =>
      cases hop : Opcode.ofTag? (Instr.wordTag word) with
      | none => exact ⟨word, _, rfl, .undecodable hop⟩
      | some op =>
        have decode := decode?_of_ofTag? hop
        cases hexec : (m.fetched word).execute
            (.ofOpcode op (if op.takesOperand then Instr.wordOperand word else 0)) with
        | mk next fault =>
          cases fault with
          | some cause =>
            rw [execute_ofOpcode] at hexec
            exact ⟨word, cause, rfl, .blocked hop (blocked_of_perform hexec).of_fetched⟩
          | none =>
            -- a success keeps the frame, and with it the fault
            have hframe := frame_execute (m.fetched word)
              (.ofOpcode op (if op.takesOperand then Instr.wordOperand word else 0))
            rw [hexec] at hframe
            refine absurd ?_ h
            rw [advance_of_success running fetch decode hexec]
            exact hframe.fault

/-- **Faults are atomic.** An instruction that faults leaves the whole machine as it was. A step
faults exactly on a word that cannot be decoded or whose operation is blocked; it then does not go
on, and it changes the halted mark, the fault, which holds the address, the word and the cause,
and the current instruction, which becomes the text of the word. -/
theorem faults_change_nothing_else (m : Machine) :
    (∀ i cause, (m.execute i).2 = some cause → (m.execute i).1 = m) ∧
    (∀ word cause, m.halted = false → m.fetch? = some word → m.Faulty word cause →
      m.advance =
        ({ m with
            halted := true
            fault := some ⟨m.ip, word, cause⟩
            current := Instr.describeWord word }, false)) ∧
    (m.advance.1.fault ≠ m.fault →
      m.halted = false ∧ ∃ word cause, m.fetch? = some word ∧ m.Faulty word cause) :=
  ⟨fun _ _ => execute_fault_unchanged, fun _ _ => advance_of_faulty, faulty_of_fault_ne⟩

/-- A machine about to pop from its empty stack. -/
private def popping : Machine :=
  (new { dataSize := 2, traceDepth := 1 }).load (some #[0x11]) [7, 8] 0

/-- Popping from an empty stack changes neither the machine nor, in a step, its data. -/
theorem faults_change_nothing_else_popping :
    popping.halted = false ∧ popping.fetch? = some 0x11 ∧ popping.Faulty 0x11 .stackEmpty ∧
    (popping.execute ⟨0x11, 0⟩).1 = popping ∧
    popping.advance =
      ({ popping with
          halted := true
          fault := some ⟨0, 0x11, .stackEmpty⟩
          current := Instr.describeWord 0x11 }, false) := by
  have fetch : popping.fetch? = some 0x11 := by decide
  have faulty : popping.Faulty 0x11 .stackEmpty :=
    .blocked (show Opcode.ofTag? (Instr.wordTag 0x11) = some .pop by decide)
      (.underflow (by decide))
  obtain ⟨hexecute, hadvance, -⟩ := faults_change_nothing_else popping
  exact ⟨rfl, fetch, faulty, hexecute ⟨0x11, 0⟩ .stackEmpty (by decide),
    hadvance 0x11 .stackEmpty rfl fetch faulty⟩

end Machine

end StackMachine
