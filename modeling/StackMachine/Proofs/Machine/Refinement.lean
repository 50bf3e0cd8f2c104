import Mathlib.Tactic.FieldSimp
import Mathlib.Tactic.Linarith
import StackMachine.Proofs.Machine.Atomicity
import StackMachine.Proofs.Machine.Reference

/-!
# Executing an instruction refines the reference machine

The machine computes in 32-bit words and works on its stack in place, without asking
whether a pop or a push succeeded. On every machine whose stack is within its limit it
nevertheless does what the reference machine does over the integers: it faults exactly
where the reference machine has no outcome, and otherwise reaches its outcome.

## Main definitions

* `Machine.view`: the state of the reference machine that a machine stands for.
* `Machine.Agrees`: an effect is the one that the reference machine prescribes.

## Main results

* `Machine.floor_div_eq`: corrected truncating division is floor division.
* `Machine.perform_agrees`: every operation does what the reference machine prescribes.
* `Machine.execute_refines_reference`: executing an instruction refines the reference machine.
-/

namespace StackMachine

namespace Machine

/-! ### Floor division -/

/-- Truncating division leaves a remainder smaller than the divisor. -/
private theorem abs_tmod_lt (a : Int) {b : Int} (hb : b ≠ 0) : |a.tmod b| < |b| := by
  rw [Int.abs_eq_natAbs, Int.abs_eq_natAbs, Int.natAbs_tmod]
  exact_mod_cast Nat.mod_lt _ (Int.natAbs_pos.2 hb)

/-- The quotient and the remainder make up the dividend, and the remainder lies between zero and
the divisor. -/
theorem floorDivide_spec (a : Int) {b : Int} (hb : b ≠ 0) :
    a = b * (floorDivide a b).1 + (floorDivide a b).2 ∧
    (0 < b → 0 ≤ (floorDivide a b).2 ∧ (floorDivide a b).2 < b) ∧
    (b < 0 → b < (floorDivide a b).2 ∧ (floorDivide a b).2 ≤ 0) := by
  have hdiv : b * a.tdiv b + a.tmod b = a := Int.mul_tdiv_add_tmod a b
  have hlt := abs_tmod_lt a hb
  simp only [floorDivide]
  split
  · rename_i h
    obtain ⟨hr, hs⟩ := h
    refine ⟨?_, ?_, ?_⟩
    · linarith
    · intro hpos
      rw [abs_of_pos hpos, abs_lt] at hlt
      simp only [ne_eq, decide_eq_decide, not_lt.2 hpos.le, iff_false, not_not] at hs
      omega
    · intro hneg
      rw [abs_of_neg hneg, abs_lt] at hlt
      simp only [ne_eq, decide_eq_decide, hneg, iff_true] at hs
      omega
  · rename_i h
    rw [not_and_or, not_not, not_not, decide_eq_decide] at h
    refine ⟨hdiv.symm, ?_, ?_⟩
    · intro hpos
      rw [abs_of_pos hpos, abs_lt] at hlt
      omega
    · intro hneg
      rw [abs_of_neg hneg, abs_lt] at hlt
      omega

/-- Corrected truncating division rounds the quotient down. -/
theorem floor_div_eq (a : Int) {b : Int} (hb : b ≠ 0) :
    ⌊(a / b : ℚ)⌋ = (floorDivide a b).1 := by
  obtain ⟨ha, hpos, hneg⟩ := floorDivide_spec a hb
  set q := (floorDivide a b).1
  set r := (floorDivide a b).2
  have hq : (a : ℚ) / b = q + r / b := by
    have hbq : (b : ℚ) ≠ 0 := by exact_mod_cast hb
    rw [ha]
    push_cast
    field_simp
  have hrb : 0 ≤ (r : ℚ) / b ∧ (r : ℚ) / b < 1 := by
    rcases lt_or_gt_of_ne hb with h | h
    · obtain ⟨h1, h2⟩ := hneg h
      have hbq : (b : ℚ) < 0 := by exact_mod_cast h
      exact ⟨div_nonneg_of_nonpos (by exact_mod_cast h2) hbq.le,
        (div_lt_one_of_neg hbq).2 (by exact_mod_cast h1)⟩
    · obtain ⟨h1, h2⟩ := hpos h
      have hbq : (0 : ℚ) < b := by exact_mod_cast h
      exact ⟨div_nonneg (by exact_mod_cast h1) hbq.le, (div_lt_one hbq).2 (by exact_mod_cast h2)⟩
  rw [Int.floor_eq_iff, hq]
  constructor <;> linarith [hrb.1, hrb.2]

/-- The remainder of a floor division is zero or has the sign of the divisor, and is smaller. -/
theorem remainder_spec (a : Int) {b : Int} (hb : b ≠ 0) :
    (a - b * ⌊(a / b : ℚ)⌋ = 0 ∨ (a - b * ⌊(a / b : ℚ)⌋).sign = b.sign) ∧
      |a - b * ⌊(a / b : ℚ)⌋| < |b| := by
  obtain ⟨ha, hpos, hneg⟩ := floorDivide_spec a hb
  have hr : a - b * ⌊(a / b : ℚ)⌋ = (floorDivide a b).2 := by
    rw [floor_div_eq a hb]
    linarith
  rw [hr]
  rcases lt_or_gt_of_ne hb with h | h
  · obtain ⟨hlow, hhigh⟩ := hneg h
    refine ⟨?_, by rw [abs_of_nonpos hhigh, abs_of_neg h]; omega⟩
    rcases hhigh.eq_or_lt with hzero | hlt
    · exact .inl hzero
    · exact .inr (by rw [Int.sign_eq_neg_one_of_neg hlt, Int.sign_eq_neg_one_of_neg h])
  · obtain ⟨hlow, hhigh⟩ := hpos h
    refine ⟨?_, by rw [abs_of_nonneg hlow, abs_of_pos h]; exact hhigh⟩
    rcases hlow.eq_or_lt with hzero | hlt
    · exact .inl hzero.symm
    · exact .inr (by rw [Int.sign_eq_one_of_pos hlt, Int.sign_eq_one_of_pos h])

/-! ### Views -/

/-- The state of the reference machine that a machine stands for. -/
def view (m : Machine) : Reference.State where
  stack := m.stack.items.map Int32.toInt
  data := m.data.toList.map Int32.toInt
  ip := m.ip
  flags := m.flags
  halted := m.halted

/-- An effect on a machine is the one that the reference machine prescribes: its outcome, or no
change where it has none. -/
def Agrees (m : Machine) (op : Opcode) (operand : Int32) (effect : Effect) : Prop :=
  match effect.2 with
  | none => Reference.Step m.stack.bound operand.toInt m.view op effect.1.view
  | some _ =>
    effect.1 = m ∧ ∀ r, ¬Reference.Step m.stack.bound operand.toInt m.view op r

theorem ofResult_eq_flagsOf (result : Int) : Flags.ofResult result = Reference.flagsOf result := by
  simp only [Flags.ofResult, Reference.flagsOf, Flags.mk.injEq, true_and]
  rw [← Bool.decide_or, decide_eq_decide]
  omega

theorem toInt_ofInt_eq_reduce (result : Int) :
    (Int32.ofInt result).toInt = Reference.reduce result :=
  Int32.toInt_ofInt

theorem bits_toInt (a : Int32) : Reference.bits a.toInt = a.toBitVec :=
  BitVec.ofInt_toInt

variable {m : Machine} {op : Opcode} {operand : Int32} {cause : FaultCause} {a b c : Int32}
  {rest : List Int32}

theorem view_stack_of_items {items : List Int32} (h : m.stack.items = items) :
    m.view.stack = items.map Int32.toInt := by
  rw [view, h]

theorem length_view_stack (m : Machine) : m.view.stack.length = m.stack.depth := by
  simp [view, m.stack.counted]

/-- A machine on the next instruction with a result on top of its stack and in its flags. -/
theorem view_push {used : Bool} (result : Int) (room : (rest.length : Int) < m.stack.bound) :
    { m.withResult { items := rest, limit := m.stack.limit, used := used } result with
        ip := m.ip + 1 }.view =
      m.view.push (rest.map Int32.toInt) result := by
  simp only [withResult, Stack.push_mk _ room]
  simp only [view, Reference.State.push, Reference.State.next, List.map_cons,
    toInt_ofInt_eq_reduce, ofResult_eq_flagsOf]

/-! ### Operations -/

/-- A blocked operation has no outcome on the reference machine. -/
theorem agrees_of_blocked (h : m.Blocked op cause) :
    m.Agrees op operand (m.perform op operand) := by
  rw [perform_eq_of_blocked h]
  refine ⟨rfl, fun r hr => ?_⟩
  cases h with
  | underflow few =>
    have henough := hr.enough
    rw [length_view_stack] at henough
    exact absurd few (Nat.not_lt.2 henough)
  | overflow enough grows full =>
    have hroom := hr.room grows
    rw [length_view_stack] at hroom
    exact absurd full (Int.not_le.2 hroom)
  | zeroDivisor rest hop enough top =>
    subst hop
    cases hr with
    | div htop divisor quotient => simp_all [view]
  | noCell address rest hop enough top outside =>
    rcases hop with rfl | rfl
    · cases hr with
      | load htop cell =>
        rw [view_stack_of_items top, List.map_cons, List.cons.injEq] at htop
        have hlt := (List.getElem?_eq_some_iff.1 cell).1
        simp only [view, List.length_map, Array.length_toList] at hlt
        omega
    · cases hr with
      | store htop cell =>
        rw [view_stack_of_items top, List.map_cons, List.cons.injEq] at htop
        simp only [view, List.length_map, Array.length_toList] at cell
        omega

/-- Replacing two entries by their exact result. -/
private theorem actOnTwo_eq (within : (m.stack.depth : Int) ≤ m.stack.bound)
    (top : m.stack.items = b :: a :: rest) :
    (m.actOnTwo op).2 = none ∧
      (m.actOnTwo op).1.view = m.view.push (rest.map Int32.toInt) (twoEntryResult op a b) := by
  have room : (rest.length : Int) < m.stack.bound := Stack.length_lt_bound within (by grind)
  simp only [actOnTwo, Stack.pop_of_items top, Stack.pop_mk, proceed_eq, true_and]
  exact view_push _ room

/-- Replacing an entry by its exact result. -/
private theorem actOnOne_eq (within : (m.stack.depth : Int) ≤ m.stack.bound)
    (top : m.stack.items = a :: rest) :
    (m.actOnOne op).2 = none ∧
      (m.actOnOne op).1.view = m.view.push (rest.map Int32.toInt) (oneEntryResult op a) := by
  have room : (rest.length : Int) < m.stack.bound := Stack.length_lt_bound within (by grind)
  simp only [actOnOne, Stack.pop_of_items top, proceed_eq, true_and]
  exact view_push _ room

/-- Replacing two entries by their quotient and remainder. -/
private theorem divide_eq (within : (m.stack.depth : Int) ≤ m.stack.bound)
    (top : m.stack.items = b :: a :: rest) (hb : b.toInt ≠ 0) :
    m.divide.2 = none ∧
      m.divide.1.view =
        { m.view.push (rest.map Int32.toInt) (floorDivide a.toInt b.toInt).1 with
          stack := (a.toInt - b.toInt * (floorDivide a.toInt b.toInt).1) ::
            Reference.reduce (floorDivide a.toInt b.toInt).1 :: rest.map Int32.toInt } := by
  have room (q : Int32) : (rest.length : Int) < m.stack.bound ∧
      ((q :: rest).length : Int) < m.stack.bound :=
    ⟨Stack.length_lt_bound within (by grind), Stack.length_lt_bound within (by grind)⟩
  -- the remainder is smaller than the divisor, so it is a word
  have hremainder : (Int32.ofInt (floorDivide a.toInt b.toInt).2).toInt =
      a.toInt - b.toInt * (floorDivide a.toInt b.toInt).1 := by
    obtain ⟨hdividend, hpos, hneg⟩ := floorDivide_spec a.toInt hb
    have hlow := b.le_toInt
    have hhigh := b.toInt_lt
    rw [Int32.toInt_ofInt_of_le (by omega) (by omega)]
    linarith
  have hb' : b ≠ 0 := fun h => hb (by simp [h])
  simp only [divide, Stack.peek_of_items top, hb', if_false, Stack.pop_of_items top, Stack.pop_mk,
    withResult, Stack.push_mk _ (room 0).1, Stack.push_mk _ (room _).2, proceed_eq, true_and]
  simp only [view, Reference.State.push, Reference.State.next, List.map_cons, hremainder,
    toInt_ofInt_eq_reduce, ofResult_eq_flagsOf]

/-- Replacing an address by the data cell at it. -/
private theorem loadCell_eq {address : Int32} {k : Nat}
    (within : (m.stack.depth : Int) ≤ m.stack.bound) (top : m.stack.items = address :: rest)
    (hk : address.toInt = k) (hlt : k < m.data.size) :
    m.loadCell.2 = none ∧
      m.loadCell.1.view = m.view.next (m.data[k].toInt :: rest.map Int32.toInt) := by
  have room : (rest.length : Int) < m.stack.bound := Stack.length_lt_bound within (by grind)
  have hcell : m.hasCell k = true := (m.hasCell_eq_true_iff _).2 (by omega)
  simp only [loadCell, peek, Stack.peek_of_items top, hk, hcell, if_true, Stack.pop_of_items top,
    Stack.push_mk _ room, proceed_eq, Int.toNat_natCast, true_and]
  simp [view, Reference.State.next, hlt]

/-- Writing a value to the data cell at an address. -/
private theorem storeCell_eq {address value : Int32} {k : Nat}
    (top : m.stack.items = address :: value :: rest) (hk : address.toInt = k)
    (hlt : k < m.data.size) :
    m.storeCell.2 = none ∧
      m.storeCell.1.view =
        { m.view.next (rest.map Int32.toInt) with data := m.view.data.set k value.toInt } := by
  have hcell : m.hasCell k = true := (m.hasCell_eq_true_iff _).2 (by omega)
  simp only [storeCell, Stack.peek_of_items top, hk, hcell, if_true, Stack.pop_of_items top,
    Stack.pop_mk, proceed_eq, Int.toNat_natCast, true_and]
  simp [view, Reference.State.next, List.map_set]

/-- The outcome of the operations on two entries. -/
private theorem step_two {limit operand : Int} {r : Reference.State} {s : List Int}
    (hop : op = .add ∨ op = .sub ∨ op = .mul ∨ op = .and ∨ op = .or ∨ op = .xor)
    (top : r.stack = b.toInt :: a.toInt :: s) :
    Reference.Step limit operand r op (r.push s (twoEntryResult op a b)) := by
  have hand : (a &&& b).toInt = (Reference.bits a.toInt &&& Reference.bits b.toInt).toInt := by
    rw [bits_toInt, bits_toInt]
    rfl
  have hor : (a ||| b).toInt = (Reference.bits a.toInt ||| Reference.bits b.toInt).toInt := by
    rw [bits_toInt, bits_toInt]
    rfl
  have hxor : (a ^^^ b).toInt = (Reference.bits a.toInt ^^^ Reference.bits b.toInt).toInt := by
    rw [bits_toInt, bits_toInt]
    rfl
  rcases hop with rfl | rfl | rfl | rfl | rfl | rfl
  · exact .add top
  · exact .sub top
  · exact .mul top
  · rw [twoEntryResult, hand]
    exact .and top
  · rw [twoEntryResult, hor]
    exact .or top
  · rw [twoEntryResult, hxor]
    exact .xor top

/-- The outcome of the operations on one entry. -/
private theorem step_one {limit operand : Int} {r : Reference.State} {s : List Int}
    (hop : op = .not ∨ op = .inc ∨ op = .dec) (top : r.stack = a.toInt :: s) :
    Reference.Step limit operand r op (r.push s (oneEntryResult op a)) := by
  have hnot : (~~~a).toInt = (~~~Reference.bits a.toInt).toInt := by
    rw [bits_toInt]
    rfl
  rcases hop with rfl | rfl | rfl
  · rw [oneEntryResult, hnot]
    exact .not top
  · exact .inc top
  · exact .dec top

/-- The outcome of the jumps. -/
theorem step_jump {limit operand : Int} {r : Reference.State} (hop : op.isJump = true) :
    Reference.Step limit operand r op
      { r with ip := if r.flags.taken op then operand else r.ip + 1 } := by
  cases op with
  | jmp => exact .jmp
  | jz => exact .jz
  | jnz => simpa [Reference.State.branch, Flags.taken] using Reference.Step.jnz (r := r)
  | jl => exact .jl
  | jg => simpa [Reference.State.branch, Flags.taken] using Reference.Step.jg (r := r)
  | jle => simpa [Reference.State.branch, Flags.taken] using Reference.Step.jle (r := r)
  | jge => simpa [Reference.State.branch, Flags.taken] using Reference.Step.jge (r := r)
  | _ => simp [Opcode.isJump, Opcode.opClass] at hop

/-- An effect without a fault agrees if it reaches an outcome of the reference machine. -/
private theorem agrees_of_eq {effect : Effect} {r : Reference.State}
    (h : effect.2 = none ∧ effect.1.view = r)
    (step : Reference.Step m.stack.bound operand.toInt m.view op r) :
    m.Agrees op operand effect := by
  rw [Agrees, h.1, h.2]
  exact step

/-- An access to data memory that is not blocked has a cell. -/
private theorem exists_cell_of_free {address : Int32} (hop : op = .load ∨ op = .store)
    (enough : op.entriesNeeded ≤ m.stack.depth) (top : m.stack.items = address :: rest)
    (free : ∀ cause, ¬m.Blocked op cause) : ∃ k : Nat, address.toInt = k ∧ k < m.data.size := by
  have hinside : ¬(address.toInt < 0 ∨ (m.data.size : Int) ≤ address.toInt) :=
    fun outside => free _ (.noCell address rest hop enough top outside)
  exact ⟨address.toInt.toNat, by omega, by omega⟩

/-- An operation that is not blocked reaches the outcome of the reference machine. -/
private theorem act_agrees (within : (m.stack.depth : Int) ≤ m.stack.bound)
    (free : ∀ cause, ¬m.Blocked op cause) : m.Agrees op operand (m.act op operand) := by
  have enough : op.entriesNeeded ≤ m.stack.depth :=
    Nat.not_lt.1 fun few => free _ (.underflow few)
  have room (grows : op.needsRoom = true) : (m.stack.depth : Int) < m.stack.bound :=
    Int.not_le.1 fun full => free _ (.overflow enough grows full)
  have below (items : List Int32) (h : items.length < m.stack.items.length) :
      (items.length : Int) < m.stack.bound := Stack.length_lt_bound within h
  cases op with
  | nop => exact .nop
  | halt => exact .halt
  | push =>
    simp only [act, Stack.push_of_lt _ (room rfl)]
    exact .push (m.length_view_stack ▸ room rfl)
  | pop =>
    obtain ⟨a, rest, top⟩ := Stack.exists_items_of_one_le enough
    simp only [act, Stack.pop_of_items top]
    exact .pop (view_stack_of_items top)
  | dup =>
    obtain ⟨a, rest, top⟩ := Stack.exists_items_of_one_le enough
    simp only [act, Stack.push_of_lt _ (room rfl), Stack.peek_of_items top, top]
    exact .dup (view_stack_of_items top) (m.length_view_stack ▸ room rfl)
  | swap =>
    obtain ⟨b, a, rest, top⟩ := Stack.exists_items_of_two_le enough
    simp only [act, Stack.pop_of_items top, Stack.pop_mk, Stack.push_mk _ (below rest (by grind)),
      Stack.push_mk _ (below (b :: rest) (by grind))]
    exact .swap (view_stack_of_items top)
  | rot =>
    obtain ⟨c, b, a, rest, top⟩ := Stack.exists_items_of_three_le enough
    simp only [act, Stack.pop_of_items top, Stack.pop_mk, Stack.push_mk _ (below rest (by grind)),
      Stack.push_mk _ (below (b :: rest) (by grind)),
      Stack.push_mk _ (below (c :: b :: rest) (by grind))]
    exact .rot (view_stack_of_items top)
  | cmp =>
    obtain ⟨b, a, rest, top⟩ := Stack.exists_items_of_two_le enough
    simp only [act, Stack.pop_of_items top, Stack.peek_mk, ofResult_eq_flagsOf]
    exact .cmp (view_stack_of_items top)
  | add | sub | mul | and | or | xor =>
    obtain ⟨b, a, rest, top⟩ := Stack.exists_items_of_two_le enough
    exact agrees_of_eq (actOnTwo_eq within top) (step_two (by simp) (view_stack_of_items top))
  | not | inc | dec =>
    obtain ⟨a, rest, top⟩ := Stack.exists_items_of_one_le enough
    exact agrees_of_eq (actOnOne_eq within top) (step_one (by simp) (view_stack_of_items top))
  | div =>
    obtain ⟨b, a, rest, top⟩ := Stack.exists_items_of_two_le enough
    have hb : b.toInt ≠ 0 := by
      intro h
      have hzero : b = 0 := Int32.toInt_inj.1 h
      exact free _ (.zeroDivisor (a :: rest) rfl enough (hzero ▸ top))
    exact agrees_of_eq (divide_eq within top hb)
      (.div (view_stack_of_items top) hb (floor_div_eq _ hb).symm)
  | load =>
    obtain ⟨address, rest, top⟩ := Stack.exists_items_of_one_le enough
    obtain ⟨k, hk, hlt⟩ := exists_cell_of_free (.inl rfl) enough top free
    have hcell : m.view.data[k]? = some m.data[k].toInt := by simp [view, hlt]
    refine agrees_of_eq (loadCell_eq within top hk hlt) (.load ?_ hcell)
    rw [view_stack_of_items top, List.map_cons, hk]
  | store =>
    obtain ⟨address, value, rest, top⟩ := Stack.exists_items_of_two_le enough
    obtain ⟨k, hk, hlt⟩ := exists_cell_of_free (.inr rfl) enough top free
    refine agrees_of_eq (storeCell_eq top hk hlt) (.store ?_ (by simpa [view] using hlt))
    rw [view_stack_of_items top, List.map_cons, List.map_cons, hk]
  | jmp | jz | jnz | jl | jg | jle | jge =>
    refine agrees_of_eq ?_ (step_jump rfl)
    simp only [act]
    split <;> simp_all [view]

/-- Every operation does what the reference machine prescribes. -/
theorem perform_agrees (within : (m.stack.depth : Int) ≤ m.stack.bound) (op : Opcode)
    (operand : Int32) : m.Agrees op operand (m.perform op operand) := by
  by_cases h : ∃ cause, m.Blocked op cause
  · obtain ⟨cause, hb⟩ := h
    exact agrees_of_blocked hb
  · have free (cause : FaultCause) : ¬m.Blocked op cause := fun hb => h ⟨cause, hb⟩
    have hact : m.perform op operand = m.act op operand :=
      perform_eq_act (Nat.not_lt.1 fun few => free _ (.underflow few)) fun grows =>
        Int.not_le.1 fun full =>
          free _ (.overflow (Nat.not_lt.1 fun few => free _ (.underflow few)) grows full)
    rw [hact]
    exact act_agrees within free

/-! ### Instructions -/

/-- An operation reaches exactly the outcomes of the reference machine. -/
theorem step_iff_perform (within : (m.stack.depth : Int) ≤ m.stack.bound) (r : Reference.State) :
    Reference.Step m.stack.bound operand.toInt m.view op r ↔
      ∃ next, m.perform op operand = (next, none) ∧ next.view = r := by
  have hagrees := perform_agrees within op operand
  rcases hperform : m.perform op operand with ⟨next, fault⟩
  rw [hperform] at hagrees
  cases fault with
  | none =>
    constructor
    · intro hstep
      exact ⟨next, rfl, hagrees.deterministic hstep⟩
    · rintro ⟨next', heq, rfl⟩
      cases heq
      exact hagrees
  | some cause =>
    constructor
    · intro hstep
      exact absurd hstep (hagrees.2 r)
    · rintro ⟨next', heq, -⟩
      cases heq

/-- An operation keeps the stack within its limit. -/
theorem within_perform (within : (m.stack.depth : Int) ≤ m.stack.bound) {next : Machine}
    (h : m.perform op operand = (next, none)) : (next.stack.depth : Int) ≤ next.stack.bound := by
  have hstep := (step_iff_perform within next.view).2 ⟨next, h, rfl⟩
  have hframe := frame_perform m op operand
  rw [h] at hframe
  have hnext := hstep.within (by rw [length_view_stack]; exact within)
  rwa [length_view_stack, ← hframe.bound] at hnext

/-- **Executing an instruction refines the reference machine.** On a machine whose stack is within
its limit, a defined operation succeeds exactly where the reference machine has an outcome, and
then reaches that outcome and leaves the frame as it was; the remainder of a division is zero or
has the sign of the divisor, and is smaller. Where there is no outcome, and for an undefined tag,
the machine is unchanged. -/
theorem execute_refines_reference (m : Machine) (i : Instr)
    (within : (m.stack.depth : Int) ≤ m.stack.bound) :
    (∀ op, Opcode.ofTag? i.tag = some op → ∀ r,
      Reference.Step m.stack.bound i.operand.toInt m.view op r ↔
        ∃ next, m.execute i = (next, none) ∧ next.view = r) ∧
    (∀ next, m.execute i = (next, none) →
      (∃ op, Opcode.ofTag? i.tag = some op) ∧ m.Frame next ∧
        (next.stack.depth : Int) ≤ next.stack.bound) ∧
    (∀ next, m.execute i = (next, none) → Opcode.ofTag? i.tag = some .div →
      ∃ (a b r : Int) (s : List Int), m.view.stack = b :: a :: s ∧
        next.view.stack = r :: Int.bmod ⌊(a / b : ℚ)⌋ (2 ^ 32) :: s ∧
        r = a - b * ⌊(a / b : ℚ)⌋ ∧ (r = 0 ∨ r.sign = b.sign) ∧ |r| < |b|) ∧
    (∀ next cause, m.execute i = (next, some cause) → next = m) := by
  refine ⟨?_, ?_, ?_, ?_⟩
  · intro op hop r
    rw [execute_of_ofTag? hop]
    exact step_iff_perform within r
  · intro next h
    cases hop : Opcode.ofTag? i.tag with
    | none => simp [execute, hop] at h
    | some op =>
      have hframe := frame_execute m i
      rw [h] at hframe
      rw [execute_of_ofTag? hop] at h
      exact ⟨⟨op, rfl⟩, hframe, within_perform within h⟩
  · intro next h hop
    rw [execute_of_ofTag? hop] at h
    have hstep := (step_iff_perform within next.view).2 ⟨next, h, rfl⟩
    obtain ⟨a, b, s, htop, hb, hstack⟩ := hstep.stack_of_div
    obtain ⟨hsign, hlt⟩ := remainder_spec a hb
    exact ⟨a, b, _, s, htop, hstack, rfl, hsign, hlt⟩
  · intro next cause h
    have hunchanged := execute_fault_unchanged (congrArg Prod.snd h)
    rwa [h] at hunchanged

/-- A machine about to divide the least word by minus one. -/
def dividing : Machine :=
  { new { dataSize := 1, stackLimit := 2 } with
    stack := { items := [-1, -2147483648], limit := 2, used := true } }

/-- The quotient of the least word by minus one wraps around, and overflows in the flags. -/
theorem execute_refines_reference_dividing :
    (dividing.stack.depth : Int) ≤ dividing.stack.bound ∧
    ∃ next, dividing.execute ⟨0x04, 0⟩ = (next, none) ∧
      next.view.stack = [0, -2147483648] ∧ next.view.flags = ⟨false, false, true⟩ ∧
      dividing.Frame next := by
  have within : (dividing.stack.depth : Int) ≤ dividing.stack.bound := by decide
  have hstep : Reference.Step dividing.stack.bound 0 dividing.view .div
      { dividing.view.push [] 2147483648 with
        stack := [-2147483648 - -1 * 2147483648, Reference.reduce 2147483648] } :=
    .div rfl (by decide) (by norm_num)
  obtain ⟨houtcome, hframe, -, -⟩ := execute_refines_reference dividing ⟨0x04, 0⟩ within
  obtain ⟨next, hnext, hview⟩ := (houtcome .div (by decide) _).1 hstep
  refine ⟨within, next, hnext, ?_, ?_, (hframe next hnext).2.1⟩
  · rw [hview]
    decide
  · rw [hview]
    decide

end Machine

end StackMachine
