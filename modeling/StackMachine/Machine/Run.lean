import StackMachine.Machine.Execute

/-!
# Stepping and running

A step fetches, decodes and executes one instruction. A machine that has halted stays as
it is, and leaving the program halts it. A run takes steps until the machine halts or
its budget is spent.

## Main definitions

* `Machine.advance`, `Machine.step`: one step, and whether the machine goes on.
* `Machine.run`: as many steps as a budget allows.
* `Machine.trail`: the states on the way.
* `Machine.stepJournal`, `Machine.runJournal`: what is reported on the way.
-/

namespace StackMachine

namespace Machine

/-- The instruction word that the next step fetches, if the machine is inside its program. -/
def fetch? (m : Machine) : Option UInt32 :=
  if m.ip < 0 then none else m.code[m.ip.toNat]?

/-- The machine with an instruction word fetched. -/
def fetched (m : Machine) (word : UInt32) : Machine :=
  { m with current := Instr.describeWord word }

/-- The machine stopped by a fault at its current instruction. -/
def stop (m : Machine) (word : UInt32) (cause : FaultCause) : Machine :=
  { m with halted := true, fault := some ⟨m.ip, word, cause⟩ }

/-- What the history keeps of an instruction executed at an address. -/
def historyEntry (m : Machine) (ip : Int) : History.Entry where
  command := m.current
  ip := ip
  stack := if m.stack.used then some m.stack.toList else none
  flags := m.flags

/-- The machine with an executed instruction counted and remembered. -/
def record (m : Machine) (ip : Int) : Machine :=
  { m with
    cycles := m.cycles + 1
    history := m.history.map fun history => history.push (m.historyEntry ip) }

/-- Executes one instruction, and says whether the machine goes on. -/
def advance (m : Machine) : Machine × Bool :=
  if m.halted then (m, false)
  else
    match m.fetch? with
    | none => ({ m with halted := true }, false)
    | some word =>
      match Instr.decode? word with
      | none => ((m.fetched word).stop word (.badOpcode word), false)
      | some i =>
        match (m.fetched word).execute i with
        | (next, some cause) => (next.stop word cause, false)
        | (next, none) => (next.record m.ip, !next.halted)

/-- Executes one instruction. -/
def step (m : Machine) : Machine :=
  m.advance.1

/-- At most `n` steps. -/
def runFor : Nat → Machine → Machine
  | 0, m => m
  | n + 1, m =>
    match m.advance with
    | (next, true) => runFor n next
    | (next, false) => next

/-- Steps until the machine halts or the budget is spent; a negative budget allows no step. -/
def run (m : Machine) (budget : Int) : Machine :=
  runFor budget.toNat m

/-- The states after each of at most `n` steps, up to the first after which the machine does not
go on. -/
def trail : Nat → Machine → List Machine
  | 0, _ => []
  | n + 1, m =>
    match m.advance with
    | (next, true) => next :: trail n next
    | (next, false) => [next]

/-! ### The kinds of steps -/

section Advance

variable {m next : Machine} {word : UInt32} {i : Instr} {cause : FaultCause}

theorem advance_of_halted (h : m.halted = true) : m.advance = (m, false) := by
  simp [advance, h]

theorem advance_of_outside (running : m.halted = false) (h : m.fetch? = none) :
    m.advance = ({ m with halted := true }, false) := by
  rw [advance, running, h]
  rfl

theorem advance_of_undecodable (running : m.halted = false) (fetch : m.fetch? = some word)
    (h : Instr.decode? word = none) :
    m.advance = ((m.fetched word).stop word (.badOpcode word), false) := by
  rw [advance, running, fetch]
  simp only [Bool.false_eq_true, if_false, h]

theorem advance_of_fault (running : m.halted = false) (fetch : m.fetch? = some word)
    (decode : Instr.decode? word = some i)
    (h : (m.fetched word).execute i = (next, some cause)) :
    m.advance = (next.stop word cause, false) := by
  rw [advance, running, fetch]
  simp only [Bool.false_eq_true, if_false, decode, h]

theorem advance_of_success (running : m.halted = false) (fetch : m.fetch? = some word)
    (decode : Instr.decode? word = some i) (h : (m.fetched word).execute i = (next, none)) :
    m.advance = (next.record m.ip, !next.halted) := by
  rw [advance, running, fetch]
  simp only [Bool.false_eq_true, if_false, decode, h]

end Advance

/-! ### Journal -/

/-- What a step reports: the instruction, and the fault if it stops the machine. -/
def stepJournal (m : Machine) : List Journal.Entry :=
  if m.halted then []
  else
    match m.fetch? with
    | none => [Journal.debug "cpu: end of program" [("ip", Numeral.decimal m.ip)]]
    | some word =>
      let place := [("cycle", Numeral.decimal m.cycles), ("ip", Numeral.decimal m.ip)]
      let faulted :=
        match m.step.fault with
        | none => []
        | some fault => [Journal.debug ("cpu: " ++ fault.message) place]
      match Instr.decode? word with
      | none => faulted
      | some i =>
        Journal.debug (Text.ofString ("cpu: " ++ i.text)) (place ++ [("op", Opcode.tagName i.tag)])
          :: faulted

/-- What a run reports, step by step; `seen` holds the entries before it, last first. -/
def runJournalFor : Nat → List Journal.Entry → Machine → List Journal.Entry
  | 0, seen, _ => seen.reverse
  | n + 1, seen, m =>
    let seen := m.stepJournal.reverse ++ seen
    match m.advance with
    | (next, true) => runJournalFor n seen next
    | (_, false) => seen.reverse

/-- What a run reports. -/
def runJournal (m : Machine) (budget : Int) : List Journal.Entry :=
  runJournalFor budget.toNat [] m

end Machine

end StackMachine
