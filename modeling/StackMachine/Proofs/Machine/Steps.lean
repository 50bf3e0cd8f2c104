import StackMachine.Proofs.Codec
import StackMachine.Proofs.Machine.Refinement

/-!
# The kinds of steps

A step of a machine is one of four: nothing if it has halted, a halt if it has left its
program, a fault, or an instruction executed. What holds in all four holds after every
step, and by induction after every run.

## Main definitions

* `Machine.Advance`: the kinds of steps, each with all that it changes.

## Main results

* `Machine.advance_kind`: every step is of one of these kinds.
* `Machine.runFor_induction`: what every step keeps, every run keeps.
-/

namespace StackMachine

namespace Machine

/-- The kinds of steps, and what they lead to. -/
inductive Advance (m : Machine) : Machine × Bool → Prop
  | halted (stopped : m.halted = true) : Advance m (m, false)
  | outside (running : m.halted = false) (fetch : m.fetch? = none) :
      Advance m ({ m with halted := true }, false)
  | fault {word : UInt32} {cause : FaultCause} (running : m.halted = false)
      (fetch : m.fetch? = some word) (faulty : m.Faulty word cause) :
      Advance m
        ({ m with
            halted := true
            fault := some ⟨m.ip, word, cause⟩
            current := Instr.describeWord word }, false)
  | success {word : UInt32} {op : Opcode} {operand : Int32} {next : Machine}
      (running : m.halted = false) (fetch : m.fetch? = some word)
      (decodes : Instr.decode? word = some (.ofOpcode op operand))
      (performed : (m.fetched word).perform op operand = (next, none)) :
      Advance m (next.record m.ip, !next.halted)

/-- Every step is of one of the four kinds. -/
theorem advance_kind (m : Machine) : m.Advance m.advance := by
  cases running : m.halted with
  | true =>
    rw [advance_of_halted running]
    exact .halted running
  | false =>
    cases fetch : m.fetch? with
    | none =>
      rw [advance_of_outside running fetch]
      exact .outside running fetch
    | some word =>
      by_cases faulty : ∃ cause, m.Faulty word cause
      · obtain ⟨cause, faulty⟩ := faulty
        rw [advance_of_faulty running fetch faulty]
        exact .fault running fetch faulty
      · cases found : Opcode.ofTag? (Instr.wordTag word) with
        | none => exact absurd ⟨_, .undecodable found⟩ faulty
        | some op =>
          have decodes := decode?_of_ofTag? found
          rcases performed : (m.fetched word).perform op
              (if op.takesOperand then Instr.wordOperand word else 0) with ⟨next, _ | cause⟩
          · rw [advance_of_success running fetch decodes
              ((execute_ofOpcode _ _ _).trans performed)]
            exact .success running fetch decodes performed
          · exact absurd ⟨cause, .blocked found (blocked_of_perform performed).of_fetched⟩ faulty

/-- The address of a word that is fetched lies in the program. -/
theorem inside_of_fetch? {m : Machine} {word : UInt32} (h : m.fetch? = some word) :
    0 ≤ m.ip ∧ m.ip < m.code.size ∧ m.code[m.ip.toNat]? = some word := by
  unfold fetch? at h
  split at h
  · cases h
  · obtain ⟨inside, -⟩ := Array.getElem?_eq_some_iff.mp h
    exact ⟨by omega, by omega, h⟩

theorem outside_of_fetch? {m : Machine} (h : m.fetch? = none) :
    m.ip < 0 ∨ (m.code.size : Int) ≤ m.ip := by
  unfold fetch? at h
  split at h
  · exact .inl (by assumption)
  · have behind := Array.getElem?_eq_none_iff.mp h
    exact .inr (by omega)

/-- The operand of a word that is decoded has 24 bits. -/
theorem operand_bounds {word : UInt32} {op : Opcode} {operand : Int32}
    (h : Instr.decode? word = some (.ofOpcode op operand)) :
    Instr.operandMin ≤ operand.toInt ∧ operand.toInt ≤ Instr.operandMax := by
  obtain ⟨other, -, same⟩ := Instr.exists_of_decode? h
  have value := congrArg Instr.operand same
  simp only [Instr.ofOpcode] at value
  rw [← value]
  split
  · exact Instr.wordOperand_bounds word
  · exact ⟨by decide, by decide⟩

/-- What every step keeps, every run keeps. -/
theorem runFor_induction {motive : Machine → Prop}
    (step : ∀ m : Machine, motive m → motive m.advance.1) (n : Nat) {m : Machine}
    (start : motive m) : motive (runFor n m) := by
  induction n generalizing m with
  | zero => exact start
  | succ n ih =>
    have next := step m start
    unfold runFor
    split
    · rename_i after result
      rw [result] at next
      exact ih next
    · rename_i after result
      rw [result] at next
      exact next

end Machine

end StackMachine
