import Mathlib.Logic.ExistsUnique
import Mathlib.Logic.Relation
import StackMachine.Proofs.Machine.Footprint

/-!
# Comparing and branching

A comparison sets the flags from the exact difference of two words, and a conditional jump
looks at the flags and at nothing else. So the jumps decide the signed order of the words,
also where the difference has more than 32 bits, and they decide it after any number of
instructions that are neither arithmetic nor logical.

## Main definitions

* `Opcode.Decides`: the conditional jumps and the orders that they decide.
* `Machine.Performs`: an instruction of an operation is executed without a fault.
* `Machine.Neutral`: an instruction that is neither arithmetic nor logical is executed.
* `Machine.Jumps`, `Machine.Passes`: a jump is taken, or is not.

## Main results

* `Machine.Performs.flags_eq`, `Machine.flags_of_neutral`: what keeps the flags.
* `Machine.goesTo_of_isJump`: the flags decide where a jump leads.
* `Machine.branches_decide_order`: after a comparison the jumps decide the order of the words.
-/

namespace StackMachine

/-! ### Orders -/

namespace Opcode

/-- The conditional jumps, each with the order of two numbers that it decides. -/
inductive Decides : Opcode → (Int → Int → Prop) → Prop
  | jz : Decides .jz (· = ·)
  | jnz : Decides .jnz (· ≠ ·)
  | jl : Decides .jl (· < ·)
  | jg : Decides .jg (· > ·)
  | jle : Decides .jle (· ≤ ·)
  | jge : Decides .jge (· ≥ ·)

variable {op : Opcode} {order : Int → Int → Prop}

theorem Decides.isJump (decides : op.Decides order) : op.isJump = true := by
  cases decides <;> rfl

/-- The flags of a difference decide the order of the numbers, however large it is. -/
theorem Decides.taken_iff (decides : op.Decides order) (a b : Int) :
    (Flags.ofResult (a - b)).taken op = true ↔ order a b := by
  cases decides <;> simp [Flags.ofResult, Flags.taken] <;> omega

end Opcode

/-- The flags of a result take exactly one of three jumps. -/
theorem Flags.existsUnique_taken (result : Int) :
    ∃! op, op ∈ [Opcode.jl, .jz, .jg] ∧ (Flags.ofResult result).taken op = true := by
  rcases Int.lt_trichotomy result 0 with less | same | more
  · refine ⟨.jl, by simp [ofResult, taken, less], ?_⟩
    simp [ofResult, taken]
    omega
  · refine ⟨.jz, by simp [ofResult, taken, same], ?_⟩
    simp [ofResult, taken]
    omega
  · refine ⟨.jg, by simp [ofResult, taken]; omega, ?_⟩
    simp [ofResult, taken]
    omega

namespace Machine

variable {m next later : Machine} {op : Opcode} {order : Int → Int → Prop} {a b : Int32}
  {rest : List Int32}

/-! ### Performing -/

/-- An instruction of an operation is executed without a fault: it is given to the machine, or
fetched in a step. -/
inductive Performs (m : Machine) (op : Opcode) : Machine → Prop
  | given {operand : Int32} {next : Machine}
      (done : m.execute (.ofOpcode op operand) = (next, none)) : Performs m op next
  | step {word : UInt32} {operand : Int32} (running : m.halted = false)
      (fetch : m.fetch? = some word) (decodes : Instr.decode? word = some (.ofOpcode op operand))
      (done : ((m.fetched word).execute (.ofOpcode op operand)).2 = none) : Performs m op m.step

/-- An instruction that is neither arithmetic nor logical is executed without a fault. -/
def Neutral (m next : Machine) : Prop :=
  ∃ op, op.setsFlags = false ∧ m.Performs op next

/-- What is executed is the operation, and its flags are those of the machine afterwards. -/
theorem Performs.exists_perform (executed : m.Performs op next) :
    ∃ operand after, m.perform op operand = (after, none) ∧ next.flags = after.flags := by
  cases executed with
  | @given operand _ done =>
    rw [execute_ofOpcode] at done
    exact ⟨operand, next, done, rfl⟩
  | @step word operand running fetch decodes done =>
    have fetched := execute_fetched m word (.ofOpcode op operand)
    rw [fetched, execute_ofOpcode] at done
    refine ⟨operand, (m.perform op operand).1, Prod.ext rfl done, ?_⟩
    rw [execute_ofOpcode m, done] at fetched
    rw [Machine.step, advance_of_success running fetch decodes fetched]
    rfl

/-- An operation that sets no flags keeps them. -/
theorem Performs.flags_eq (executed : m.Performs op next) (keeps : op.setsFlags = false) :
    next.flags = m.flags := by
  obtain ⟨operand, after, performed, flags⟩ := executed.exists_perform
  rw [← execute_ofOpcode] at performed
  obtain ⟨other, found, -, change⟩ := change_execute performed
  obtain rfl : op = other := Option.some.inj ((Opcode.ofTag?_tag op).symm.trans found)
  exact flags.trans (change.flags_eq keeps)

/-- Instructions that are neither arithmetic nor logical keep the flags, however many they are. -/
theorem flags_of_neutral (undisturbed : Relation.ReflTransGen Neutral m later) :
    later.flags = m.flags := by
  induction undisturbed with
  | refl => rfl
  | tail before last ih =>
    obtain ⟨op, keeps, executed⟩ := last
    exact (executed.flags_eq keeps).trans ih

/-! ### Comparing -/

/-- A comparison drops the top entry and sets the flags from the exact difference. -/
theorem perform_cmp (top : m.stack.items = b :: a :: rest) (operand : Int32) :
    m.perform .cmp operand =
      ({ m with
          stack := { items := a :: rest, limit := m.stack.limit, used := m.stack.used }
          flags := .ofResult (a.toInt - b.toInt)
          ip := m.ip + 1 }, none) := by
  have enough : Opcode.cmp.entriesNeeded ≤ m.stack.depth := by
    rw [m.stack.counted, top]
    simp [Opcode.entriesNeeded]
  rw [perform_eq_act enough (by simp [Opcode.needsRoom])]
  simp only [act, Stack.pop_of_items top, Stack.peek_mk, proceed_eq]

theorem Performs.flags_of_cmp (executed : m.Performs .cmp next)
    (top : m.stack.items = b :: a :: rest) : next.flags = .ofResult (a.toInt - b.toInt) := by
  obtain ⟨operand, after, performed, flags⟩ := executed.exists_perform
  rw [perform_cmp top] at performed
  cases performed
  exact flags

/-! ### Branching -/

/-- A jump with a given operand leads to an address: it changes the instruction pointer and
nothing else if it is given to the machine, and the machine goes on from there if it is fetched in
a step. -/
def GoesTo (m : Machine) (op : Opcode) (target : Int32) (address : Int) : Prop :=
  m.execute (.ofOpcode op target) = m.goTo address ∧
  ∀ word, m.halted = false → m.fetch? = some word →
    Instr.decode? word = some (.ofOpcode op target) →
    m.advance = ({ m.fetched word with ip := address }.record m.ip, true)

/-- A jump is taken, wherever it leads. -/
def Jumps (m : Machine) (op : Opcode) : Prop :=
  ∀ target, m.GoesTo op target target.toInt

/-- A jump is not taken, wherever it would lead. -/
def Passes (m : Machine) (op : Opcode) : Prop :=
  ∀ target, m.GoesTo op target (m.ip + 1)

theorem perform_of_isJump (jumps : op.isJump = true) (target : Int32) :
    m.perform op target = m.goTo (if m.flags.taken op then target.toInt else m.ip + 1) := by
  have acts : m.act op target = m.goTo (if m.flags.taken op then target.toInt else m.ip + 1) := by
    cases op with
    | jmp | jz | jnz | jl | jg | jle | jge =>
      simp only [act]
      split <;> rfl
    | _ => cases jumps
  have enough : op.entriesNeeded = 0 := by cases op <;> first | rfl | cases jumps
  have grows : op.needsRoom = false := by cases op <;> first | rfl | cases jumps
  rw [perform_eq_act (enough ▸ Nat.zero_le _) (by simp [grows]), acts]

/-- The flags decide where a jump leads. -/
theorem goesTo_of_isJump (jumps : op.isJump = true) (target : Int32) :
    m.GoesTo op target (if m.flags.taken op then target.toInt else m.ip + 1) := by
  refine ⟨(execute_ofOpcode m op target).trans (perform_of_isJump jumps target), ?_⟩
  intro word running fetch decodes
  have done := (execute_ofOpcode (m.fetched word) op target).trans (perform_of_isJump jumps target)
  rw [advance_of_success running fetch decodes done]
  have goesOn : (!(m.fetched word).halted) = true := by
    rw [fetched, running]
    rfl
  exact congrArg _ goesOn

/-- An instruction leads to one address only. -/
theorem GoesTo.unique {target : Int32} {x y : Int} (first : m.GoesTo op target x)
    (second : m.GoesTo op target y) : x = y := by
  have same := congrArg (·.1.ip) (first.1.symm.trans second.1)
  exact same

/-- There are jumps with an operand other than the next address. -/
theorem exists_target_ne (m : Machine) : ∃ target : Int32, target.toInt ≠ m.ip + 1 := by
  by_cases zero : m.ip + 1 = 0
  · exact ⟨1, by rw [zero]; decide⟩
  · exact ⟨0, fun same => zero same.symm⟩

theorem jumps_of_taken (jumps : op.isJump = true) (taken : m.flags.taken op = true) :
    m.Jumps op := by
  intro target
  have leads := m.goesTo_of_isJump jumps target
  rwa [if_pos taken] at leads

theorem passes_of_not_taken (jumps : op.isJump = true) (passes : m.flags.taken op = false) :
    m.Passes op := by
  intro target
  have leads := m.goesTo_of_isJump jumps target
  rwa [passes] at leads

theorem Jumps.not_passes (jumps : m.Jumps op) : ¬m.Passes op := by
  intro passes
  obtain ⟨target, apart⟩ := m.exists_target_ne
  exact apart ((jumps target).unique (passes target))

theorem jumps_iff (jumps : op.isJump = true) : m.Jumps op ↔ m.flags.taken op = true := by
  refine ⟨fun taken => ?_, jumps_of_taken jumps⟩
  cases decided : m.flags.taken op with
  | true => rfl
  | false => exact absurd (passes_of_not_taken jumps decided) taken.not_passes

theorem passes_iff (jumps : op.isJump = true) : m.Passes op ↔ m.flags.taken op = false := by
  refine ⟨fun passes => ?_, passes_of_not_taken jumps⟩
  cases decided : m.flags.taken op with
  | true => exact absurd passes (jumps_of_taken jumps decided).not_passes
  | false => rfl

/-- Where the flags are those of a difference, the jumps decide the order of the numbers. -/
theorem jumps_iff_of_flags {x y : Int} (flags : m.flags = .ofResult (x - y))
    (decides : op.Decides order) :
    (m.Jumps op ↔ order x y) ∧ (m.Passes op ↔ ¬order x y) := by
  rw [jumps_iff decides.isJump, passes_iff decides.isJump, ← Bool.not_eq_true, flags,
    decides.taken_iff]
  exact ⟨Iff.rfl, Iff.rfl⟩

/-- Where the flags are those of a result, exactly one of three jumps is taken. -/
theorem existsUnique_jumps {result : Int} (flags : m.flags = .ofResult result) :
    ∃! op, op ∈ [Opcode.jl, .jz, .jg] ∧ m.Jumps op := by
  have jumps : ∀ op ∈ [Opcode.jl, .jz, .jg], op.isJump = true := by decide
  refine (existsUnique_congr fun op => and_congr_right fun member => ?_).mp
    (Flags.existsUnique_taken result)
  rw [jumps_iff (jumps op member), flags]

/-- **Comparing and branching decides the signed order.** Take a machine that has not halted, with
two words `a` and, on top of it, `b` on its stack. A comparison succeeds, given to the machine or
fetched in a step. After it and any number of instructions executed without a fault that are
neither arithmetic nor logical, a conditional jump is taken exactly if `a` and `b` as signed words
are in the order that it decides, and is not taken otherwise; of the jumps for less, for equal and
for greater, exactly one is taken. -/
theorem branches_decide_order (running : m.halted = false) (top : m.stack.items = b :: a :: rest) :
    (∀ operand, ∃ compared, m.execute (.ofOpcode .cmp operand) = (compared, none)) ∧
    (∀ word operand, m.fetch? = some word →
      Instr.decode? word = some (.ofOpcode .cmp operand) →
      m.Performs .cmp m.step ∧ m.advance.2 = true) ∧
    ∀ compared later, m.Performs .cmp compared → Relation.ReflTransGen Neutral compared later →
      (∀ op order, op.Decides order →
        (later.Jumps op ↔ order a.toInt b.toInt) ∧
        (later.Passes op ↔ ¬order a.toInt b.toInt)) ∧
      ∃! op, op ∈ [Opcode.jl, .jz, .jg] ∧ later.Jumps op := by
  refine ⟨?_, ?_, ?_⟩
  · intro operand
    exact ⟨_, (execute_ofOpcode m .cmp operand).trans (perform_cmp top operand)⟩
  · intro word operand fetch decodes
    have done := (execute_ofOpcode (m.fetched word) .cmp operand).trans
      (perform_cmp (m := m.fetched word) top operand)
    refine ⟨.step running fetch decodes (congrArg Prod.snd done), ?_⟩
    rw [advance_of_success running fetch decodes done]
    show (!m.halted) = true
    rw [running]
    rfl
  · intro compared later executed undisturbed
    have flags := (flags_of_neutral undisturbed).trans (executed.flags_of_cmp top)
    exact ⟨fun op order decides => jumps_iff_of_flags flags decides, existsUnique_jumps flags⟩

/-- A machine about to compare the least word with one, to push a word and to jump if less. -/
private def comparing : Machine :=
  { new { dataSize := 1 } with
    image := some #[0x09, 0x510, 0x733]
    stack := { items := [1, -2147483648], limit := 256, used := true } }

/-- The least word is less than one, although their difference is no word. -/
theorem branches_decide_order_least :
    comparing.halted = false ∧ comparing.stack.items = [1, -2147483648] ∧
    comparing.step.step.Jumps .jl ∧ comparing.step.step.Passes .jge ∧
    comparing.step.step.step.ip = 7 := by
  have top : comparing.stack.items = [1, -2147483648] := rfl
  obtain ⟨-, compares, decides⟩ := branches_decide_order (m := comparing) rfl top
  obtain ⟨compared, -⟩ := compares 0x09 0 (by decide) (by decide)
  have fetchPush : comparing.step.fetch? = some 0x510 := by decide +kernel
  have decodePush : Instr.decode? 0x510 = some (.ofOpcode .push 5) := by decide +kernel
  have pushed : Neutral comparing.step comparing.step.step :=
    ⟨.push, rfl, .step (by decide +kernel) fetchPush decodePush (by decide +kernel)⟩
  obtain ⟨orders, -⟩ := decides _ _ compared (.single pushed)
  have jumps : comparing.step.step.Jumps .jl := (orders _ _ .jl).1.mpr (by decide)
  have passes : comparing.step.step.Passes .jge := (orders _ _ .jge).2.mpr (by decide)
  have fetchJump : comparing.step.step.fetch? = some 0x733 := by decide +kernel
  have led := (jumps 7).2 0x733 (by decide +kernel) fetchJump (by decide +kernel)
  refine ⟨rfl, top, jumps, passes, ?_⟩
  rw [Machine.step, led]
  rfl

end Machine

end StackMachine
