import StackMachine.Proofs.Machine.Atomicity

/-!
# What the properties of an operation promise

Tables say of every operation whether it carries an operand, sets the flags or jumps, and
which name and tag it has. They stand apart from what executing the operation does. Here
they are shown to describe it: an operation that is executed without a fault works on the
stack, on the stack and the flags, on a data cell, or on the instruction pointer alone, and
its properties tell which of these it is.

## Main definitions

* `Stack.KeepsBelow`: the entries below the top ones are still there.
* `Machine.Change`: the kinds of changes that an operation makes.

## Main results

* `Machine.change_act`: every operation makes a change of the kind that its properties tell.
* `Machine.properties_describe_execution`: the properties of a tag describe what is executed.
-/

namespace StackMachine

/-! ### Names, tags and classes -/

namespace Opcode

theorem isJump_of_setsFlags {op : Opcode} (sets : op.setsFlags = true) : op.isJump = false := by
  unfold setsFlags at sets
  unfold isJump
  cases h : op.opClass <;> simp_all

theorem ofMnemonic?_mnemonic (op : Opcode) :
    ofMnemonic? (Text.ofString op.mnemonic) = some op := by
  cases op <;> decide

/-- The name shown for a tag names its operation, and nothing if the tag is undefined. -/
theorem ofMnemonic?_tagName (tag : UInt8) :
    ofMnemonic? (Text.ofString (tagName tag)) = ofTag? tag := by
  rw [tagName, nameOf?_eq]
  cases found : ofTag? tag with
  | some op => exact ofMnemonic?_mnemonic op
  | none =>
    refine List.find?_eq_none.mpr fun op _ => ?_
    -- the name of an undefined tag has a bracket, which no mnemonic has
    have bracket : Glyph.scalar '(' ∈ (Text.ofString
        ("OpCode(" ++ Numeral.decimal tag.toNat ++ ")")).map capital := by
      refine List.mem_map.mpr ⟨.scalar '(', ?_, by decide⟩
      simp [Text.ofString]
    have plain : Glyph.scalar '(' ∉ Text.ofString op.mnemonic := by
      cases op <;> decide
    intro same
    rw [decide_eq_true_iff] at same
    exact plain (same ▸ bracket)

end Opcode

/-! ### Entries that stay -/

namespace Stack

/-- The entries below the top `n` of a stack are the lowest entries of another. -/
def KeepsBelow (n : Nat) (s after : Stack) : Prop :=
  s.items.drop n <:+ after.items

variable {n k : Nat} {s after : Stack}

theorem items_push (s : Stack) (value : Int32) :
    (s.push value).items = if s.isFull then s.items else value :: s.items := by
  cases full : s.isFull <;> simp [push, push?, full]

theorem items_pop (s : Stack) : s.pop.2.items = s.items.tail := by
  unfold pop pop?
  split <;> simp_all

namespace KeepsBelow

theorem refl (s : Stack) : KeepsBelow 0 s s :=
  List.suffix_refl _

theorem push (h : KeepsBelow n s after) (value : Int32) : KeepsBelow n s (after.push value) := by
  rw [KeepsBelow, items_push]
  split
  · exact h
  · exact h.trans (List.suffix_cons value after.items)

theorem pop (h : KeepsBelow n s after) : KeepsBelow (n + 1) s after.pop.2 := by
  rw [KeepsBelow] at h
  rw [KeepsBelow, items_pop, ← List.tail_drop]
  cases items : after.items with
  | nil =>
    rw [items, List.suffix_nil] at h
    simp [h]
  | cons top rest =>
    rw [items, List.suffix_cons_iff] at h
    rcases h with all | below
    · simp [all]
    · exact (List.tail_suffix _).trans below

theorem weaken (h : KeepsBelow n s after) (le : n ≤ k) : KeepsBelow k s after := by
  obtain ⟨m, rfl⟩ := Nat.exists_eq_add_of_le le
  rw [KeepsBelow, ← List.drop_drop]
  exact (List.drop_suffix m _).trans h

end KeepsBelow

end Stack

namespace Machine

variable {m next : Machine} {op : Opcode} {operand : Int32}

/-! ### Kinds of changes -/

/-- What executing an operation without a fault makes of a machine. -/
inductive Change (m : Machine) (op : Opcode) : Machine → Prop
  /-- It works on the stack, and may halt the machine. -/
  | shuffle (stack : Stack) (halted : Bool) (keeps : op.setsFlags = false)
      (stays : op.isJump = false) (other : op ≠ .store) (deep : m.stack.KeepsBelow 3 stack) :
      Change m op { m with stack := stack, halted := halted, ip := m.ip + 1 }
  /-- It computes a result, which sets the flags. -/
  | compute (stack : Stack) (result : Int) (sets : op.setsFlags = true)
      (deep : m.stack.KeepsBelow 3 stack) :
      Change m op { m with stack := stack, flags := .ofResult result, ip := m.ip + 1 }
  /-- It writes to a data cell. -/
  | store (stack : Stack) (k : Nat) (value : Int32) (stores : op = .store)
      (inside : k < m.data.size) (deep : m.stack.KeepsBelow 3 stack) :
      Change m op
        { m with stack := stack, data := m.data.setIfInBounds k value, ip := m.ip + 1 }
  /-- It goes somewhere. -/
  | jump (address : Int) (jumps : op.isJump = true) : Change m op { m with ip := address }

private theorem change_divide (done : m.divide.2 = none) : m.Change .div m.divide.1 := by
  by_cases zero : m.stack.peek = 0
  · simp [divide, zero] at done
  · have deep (q r : Int32) : m.stack.KeepsBelow 3 ((m.stack.pop.2.pop.2.push q).push r) :=
      ((((Stack.KeepsBelow.refl _).pop.pop).push q).push r).weaken (by decide)
    simp only [divide, zero, if_false]
    exact .compute _ _ rfl (deep _ _)

private theorem change_loadCell (done : m.loadCell.2 = none) : m.Change .load m.loadCell.1 := by
  cases read : m.peek m.stack.peek.toInt with
  | error cause => simp [loadCell, read] at done
  | ok value =>
    simp only [loadCell, read]
    exact .shuffle _ m.halted rfl rfl (by decide)
      (((Stack.KeepsBelow.refl _).pop.push value).weaken (by decide))

private theorem change_storeCell (done : m.storeCell.2 = none) : m.Change .store m.storeCell.1 := by
  cases cell : m.hasCell m.stack.peek.toInt with
  | false => simp [storeCell, cell] at done
  | true =>
    obtain ⟨lower, upper⟩ := (m.hasCell_eq_true_iff _).mp cell
    simp only [storeCell, cell, if_true]
    exact .store _ m.stack.peek.toInt.toNat _ rfl (by omega)
      ((Stack.KeepsBelow.refl _).pop.pop.weaken (by decide))

/-- Every operation that is executed without a fault makes a change of the kind that its
properties tell. -/
theorem change_act (done : (m.act op operand).2 = none) : m.Change op (m.act op operand).1 := by
  have here := Stack.KeepsBelow.refl m.stack
  cases op with
  | nop | halt => exact .shuffle _ _ rfl rfl (by decide) (here.weaken (by decide))
  | push => exact .shuffle _ _ rfl rfl (by decide) ((here.push _).weaken (by decide))
  | pop => exact .shuffle _ _ rfl rfl (by decide) (here.pop.weaken (by decide))
  | dup => exact .shuffle _ _ rfl rfl (by decide) ((here.push _).weaken (by decide))
  | swap =>
    exact .shuffle _ _ rfl rfl (by decide) (((here.pop.pop.push _).push _).weaken (by decide))
  | rot => exact .shuffle _ _ rfl rfl (by decide) (((here.pop.pop.pop.push _).push _).push _)
  | add | sub | mul | and | or | xor =>
    exact .compute _ _ rfl ((here.pop.pop.push _).weaken (by decide))
  | not | inc | dec => exact .compute _ _ rfl ((here.pop.push _).weaken (by decide))
  | cmp => exact .compute _ _ rfl (here.pop.weaken (by decide))
  | div => exact change_divide done
  | load => exact change_loadCell done
  | store => exact change_storeCell done
  | jmp | jz | jnz | jl | jg | jle | jge =>
    simp only [act]
    split <;> exact .jump _ rfl

/-! ### What the properties promise -/

namespace Change

/-- An operation that sets no flags keeps them. -/
theorem flags_eq (change : m.Change op next) (keeps : op.setsFlags = false) :
    next.flags = m.flags := by
  cases change with
  | compute stack result sets deep =>
    rw [keeps] at sets
    cases sets
  | _ => rfl

/-- An operation that is no jump is followed by the next instruction. -/
theorem ip_eq (change : m.Change op next) (stays : op.isJump = false) : next.ip = m.ip + 1 := by
  cases change with
  | jump address jumps =>
    rw [stays] at jumps
    cases jumps
  | _ => rfl

/-- A jump changes the instruction pointer only. -/
theorem eq_of_isJump (change : m.Change op next) (jumps : op.isJump = true) :
    next = { m with ip := next.ip } := by
  cases change with
  | shuffle stack halted keeps stays other deep =>
    rw [stays] at jumps
    cases jumps
  | compute stack result sets deep =>
    rw [Opcode.isJump_of_setsFlags sets] at jumps
    cases jumps
  | store stack k value stores inside deep =>
    rw [stores] at jumps
    cases jumps
  | jump address jumps => rfl

/-- An operation other than a store keeps data memory. -/
theorem data_eq (change : m.Change op next) (other : op ≠ .store) : next.data = m.data := by
  cases change with
  | store stack k value stores inside deep => exact absurd stores other
  | _ => rfl

/-- A store changes one data cell. -/
theorem exists_data_eq (change : m.Change .store next) :
    ∃ k value, k < m.data.size ∧ next.data = m.data.setIfInBounds k value := by
  cases change with
  | shuffle stack halted keeps stays other deep => exact absurd rfl other
  | compute stack result sets deep => cases sets
  | store stack k value stores inside deep => exact ⟨k, value, inside, rfl⟩
  | jump address jumps => cases jumps

/-- Entries below the third are never touched. -/
theorem keepsBelow (change : m.Change op next) : m.stack.KeepsBelow 3 next.stack := by
  cases change with
  | shuffle stack halted keeps stays other deep => exact deep
  | compute stack result sets deep => exact deep
  | store stack k value stores inside deep => exact deep
  | jump address jumps => exact (Stack.KeepsBelow.refl _).weaken (by decide)

end Change

/-! ### What an operation does not look at -/

theorem act_withFlags (sets : op.setsFlags = true) (done : (m.act op operand).2 = none)
    (flags : Flags) : ({ m with flags := flags }).act op operand = m.act op operand := by
  cases op with
  | div =>
    by_cases zero : m.stack.peek = 0
    · simp [act, divide, zero] at done
    · simp only [act, divide, zero, if_false]
      rfl
  | add | sub | mul | and | or | xor | not | inc | dec | cmp => rfl
  | _ => cases sets

theorem act_of_takesNone (takesNone : op.takesOperand = false) (x y : Int32) :
    m.act op x = m.act op y := by
  cases op with
  | push | jmp | jz | jnz | jl | jg | jle | jge => cases takesNone
  | _ => rfl

/-! ### Instructions -/

/-- An operation that is executed without a fault passes the checks before it. -/
theorem allowed_of_done (done : (m.perform op operand).2 = none) :
    op.entriesNeeded ≤ m.stack.depth ∧
      (op.needsRoom = true → (m.stack.depth : Int) < m.stack.bound) := by
  by_cases enough : op.entriesNeeded ≤ m.stack.depth
  · refine ⟨enough, fun grows => Int.not_le.1 fun full => ?_⟩
    rw [perform_eq_of_blocked (.overflow enough grows full)] at done
    cases done
  · rw [perform_eq_of_blocked (.underflow (Nat.not_le.1 enough))] at done
    cases done

theorem perform_of_done (done : (m.perform op operand).2 = none) :
    m.perform op operand = m.act op operand :=
  have allowed := allowed_of_done done
  perform_eq_act allowed.1 allowed.2

/-- An operation that sets the flags does not look at them. -/
theorem perform_withFlags (sets : op.setsFlags = true) (done : (m.perform op operand).2 = none)
    (flags : Flags) : ({ m with flags := flags }).perform op operand = m.perform op operand := by
  obtain ⟨enough, room⟩ := allowed_of_done done
  have acts := perform_of_done done
  rw [acts] at done
  rw [perform_eq_act (m := { m with flags := flags }) enough room, acts]
  exact act_withFlags sets done flags

theorem perform_of_takesNone (takesNone : op.takesOperand = false) (x y : Int32) :
    m.perform op x = m.perform op y := by
  rw [perform, perform, act_of_takesNone takesNone x y]

section Execute

variable {i : Instr}

/-- An instruction is refused as a bad opcode exactly if its tag is undefined. -/
theorem execute_eq_badOpcode_iff {word : UInt32} :
    (m.execute i).2 = some (.badOpcode word) ↔
      Opcode.ofTag? i.tag = none ∧ word = i.encode := by
  cases found : Opcode.ofTag? i.tag with
  | none =>
    rw [execute, found]
    constructor
    · intro refused
      cases refused
      exact ⟨rfl, rfl⟩
    · rintro ⟨-, rfl⟩
      rfl
  | some op =>
    rw [execute_of_ofTag? found]
    constructor
    · intro refused
      cases blocked_of_perform (Prod.ext rfl refused)
    · rintro ⟨undefined, -⟩
      cases undefined

/-- An instruction executed without a fault has a defined tag, and its operation makes a change of
the kind that its properties tell. -/
theorem change_execute (done : m.execute i = (next, none)) :
    ∃ op, Opcode.ofTag? i.tag = some op ∧ m.perform op i.operand = (next, none) ∧
      m.Change op next := by
  cases found : Opcode.ofTag? i.tag with
  | none =>
    rw [execute, found] at done
    cases done
  | some op =>
    rw [execute_of_ofTag? found] at done
    have passed := perform_of_done (congrArg Prod.snd done)
    rw [passed] at done
    have change := change_act (congrArg Prod.snd done)
    rw [done] at change
    exact ⟨op, rfl, passed.trans done, change⟩

/-- An instruction does not look at an operand that it does not carry. -/
theorem execute_of_takesNone {tag : UInt8} (takesNone : Opcode.tagTakesOperand tag = false)
    (x y : Int32) : m.execute ⟨tag, x⟩ = m.execute ⟨tag, y⟩ := by
  cases found : Opcode.ofTag? tag with
  | none =>
    have word : Instr.encode ⟨tag, x⟩ = Instr.encode ⟨tag, y⟩ := by simp [Instr.encode, takesNone]
    simp only [execute, found, word]
  | some op =>
    have none : op.takesOperand = false := by simpa [Opcode.tagTakesOperand, found] using takesNone
    simp only [execute, found]
    exact perform_of_takesNone none x y

end Execute

/-- **The properties of an operation describe its execution.** Take any machine, whatever is on its
stack, and any tag. An instruction with the tag is refused as a bad opcode exactly if the tag is
undefined; the name shown for the tag names its operation, and none if the tag is undefined. If the
tag carries no operand, the operand changes nothing. If an instruction is executed without a fault,
an operation that sets no flags keeps them and one that does ignores the old ones, a jump changes
the instruction pointer only and any other operation moves it to the next instruction, a store
changes one data cell and any other operation none, and the entries below the third stay as they
are. An instruction that faults changes nothing. -/
theorem properties_describe_execution (m : Machine) (tag : UInt8) :
    (∀ operand word, (m.execute ⟨tag, operand⟩).2 = some (.badOpcode word) ↔
      Opcode.ofTag? tag = none ∧ word = Instr.encode ⟨tag, operand⟩) ∧
    Opcode.ofMnemonic? (Text.ofString (Opcode.tagName tag)) = Opcode.ofTag? tag ∧
    (Opcode.tagTakesOperand tag = false → ∀ x y, m.execute ⟨tag, x⟩ = m.execute ⟨tag, y⟩) ∧
    (∀ operand next, m.execute ⟨tag, operand⟩ = (next, none) → ∃ op,
      Opcode.ofTag? tag = some op ∧
      (op.setsFlags = false → next.flags = m.flags) ∧
      (op.setsFlags = true → ∀ flags,
        ({ m with flags := flags }).execute ⟨tag, operand⟩ = (next, none)) ∧
      (op.isJump = false → next.ip = m.ip + 1) ∧
      (op.isJump = true → next = { m with ip := next.ip }) ∧
      (op ≠ .store → next.data = m.data) ∧
      (op = .store → ∃ k value, k < m.data.size ∧ next.data = m.data.setIfInBounds k value) ∧
      m.stack.items.drop 3 <:+ next.stack.items) ∧
    ∀ operand next cause, m.execute ⟨tag, operand⟩ = (next, some cause) → next = m := by
  refine ⟨fun operand word => execute_eq_badOpcode_iff, Opcode.ofMnemonic?_tagName tag,
    execute_of_takesNone, ?_, ?_⟩
  · intro operand next done
    obtain ⟨op, found, performed, change⟩ := change_execute done
    refine ⟨op, found, change.flags_eq, fun sets flags => ?_, change.ip_eq, change.eq_of_isJump,
      change.data_eq, ?_, change.keepsBelow⟩
    · rw [execute_of_ofTag? found, ← performed]
      exact perform_withFlags sets (congrArg Prod.snd performed) flags
    · rintro rfl
      exact change.exists_data_eq
  · intro operand next cause faulted
    have unchanged := execute_fault_unchanged (congrArg Prod.snd faulted)
    rwa [faulted] at unchanged

/-- A machine about to store a value in its second data cell, with three entries below. -/
private def storing : Machine :=
  { new { dataSize := 2, stackLimit := 8 } with
    stack := { items := [1, 42, 7, 8, 9], limit := 8, used := true }
    flags := ⟨true, false, true⟩ }

/-- A store keeps the flags and the entries below the third, goes to the next instruction and
changes a cell. The tag 0x0C is refused. -/
theorem properties_describe_execution_storing :
    (storing.execute ⟨0x0C, 5⟩).2 = some (.badOpcode 0x0C) ∧
    ∃ next, storing.execute ⟨0x21, 5⟩ = (next, none) ∧ next.flags = ⟨true, false, true⟩ ∧
      next.ip = 1 ∧ (∃ k value, k < 2 ∧ next.data = storing.data.setIfInBounds k value) ∧
      [8, 9] <:+ next.stack.items := by
  obtain ⟨refused, -⟩ := properties_describe_execution storing 0x0C
  obtain ⟨-, -, -, describes, -⟩ := properties_describe_execution storing 0x21
  have stored : storing.execute ⟨0x21, 5⟩ = ((storing.execute ⟨0x21, 5⟩).1, none) :=
    Prod.ext rfl (by decide)
  obtain ⟨op, found, keeps, -, stays, -, -, changes, deep⟩ := describes 5 _ stored
  obtain rfl : Opcode.store = op := Option.some.inj found
  exact ⟨(refused 5 0x0C).mpr ⟨by decide, by decide⟩, _, stored, keeps rfl, stays rfl, changes rfl,
    deep⟩

end Machine

end StackMachine
