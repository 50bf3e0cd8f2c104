import StackMachine.Proofs.Assembly.Independence
import StackMachine.Proofs.Isolation
import StackMachine.Proofs.Machine.InitialData
import StackMachine.Proofs.Machine.ReferenceRuns

/-!
# Programs in a session

A program is compiled in a session and run from its start. What becomes of the run is
known once the program was followed on the reference machine: it halts where the reference
machine halts, after as many cycles, with the same stack and data, or it faults on an
instruction that has no outcome. Budgets beyond that are all the same.

## Main definitions

* `Session.AtStart`: a session of the default sizes that is at the start of a program.
* `Session.Halts`, `Session.Faults`: the ends of runs.

## Main results

* `Session.AtStart.halts`: a run that comes to a halt.
* `Session.AtStart.faults_on_load`: a run that comes to a cell which does not exist.
-/

namespace StackMachine

open Assembly (Interpreter)
open Reference (Steps)

namespace Session

/-! ### Starts -/

/-- The session is at the start of a program, with a machine of the default sizes. -/
structure AtStart (s : Session) (program : List Instr) : Prop where
  code : s.machine.code.toList = program.map Instr.encode
  executes : s.machine.Executes program
  view : s.machine.view = .at 0 [] (s.machine.data.toList.map Int32.toInt) {}
  cycles : s.machine.cycles = 0
  fault : s.machine.fault = none
  bound : s.machine.stack.bound = 256
  size : s.machine.data.size = 1024

variable {s : Session} {program : List Instr} {p : Program}

/-- A machine of the default sizes keeps them. -/
theorem config_uses_new [Interpreter] (earlier : List Call) :
    ((new .default).uses earlier).machine.config = .default :=
  (sameBuild_uses _ earlier).config

/-- What a source text without expressions is assembled to in a new session, by an interpreter that
does nothing, it is compiled to in every session and by every interpreter. -/
theorem exists_compile [Interpreter] (sizes : s.machine.config = .default) {source : Text}
    (dollarless : .scalar '$' ∉ source) {α : Type} {told : Program → α} {a : α}
    (parses : (@Assembler.parse .idle (Session.new .default).assembler source).2.toOption.map told =
      some a) :
    ∃ p, s.compile source = .ok (s.load p) ∧ told p = a := by
  have same : s.assembler = (Session.new .default).assembler := by
    rw [assembler, defines, sizes]
    rfl
  obtain ⟨p, parsed, holds⟩ := Option.map_eq_some_iff.mp parses
  refine ⟨p, compile_eq_ok_iff.mpr ⟨p, ?_, rfl⟩, holds⟩
  rw [same, Assembler.parse_eq_of_dollarless _ .idle _ dollarless]
  cases result : (@Assembler.parse .idle (Session.new .default).assembler source).2 with
  | error error =>
    rw [result] at parsed
    cases parsed
  | ok program =>
    rw [result] at parsed
    cases parsed
    rfl

/-- A session with a program loaded is at its start. -/
theorem atStart_load (sizes : s.machine.config = .default)
    (words : p.image.toList = program.map Instr.encode)
    (decodes : ∀ i ∈ program, Instr.decode? i.encode = some i) : (s.load p).AtStart program where
  code := words
  executes := by
    show p.image.toList.map Instr.decode? = program.map some
    rw [words, List.map_map]
    exact List.map_congr_left decodes
  view := rfl
  cycles := rfl
  fault := rfl
  bound := by
    show (Stack.empty s.machine.config.stackLimit).bound = 256
    rw [sizes]
    rfl
  size := by
    have sized := s.machine.size_load (some p.image) s.data s.dataStart
    rw [sizes] at sized
    exact sized

/-- Initial data that fills data memory is what a program finds there. -/
theorem data_load (sizes : s.machine.config = .default) {cells : Vector Int32 1024}
    (values : s.data = cells.toList) (origin : s.dataStart = 0) :
    (s.load p).machine.data = cells.toArray := by
  show (s.machine.load (some p.image) s.data s.dataStart).data = cells.toArray
  rw [values, origin]
  have size := s.machine.size_load (some p.image) cells.toList 0
  rw [sizes] at size
  refine Array.ext (size.trans cells.size_toArray.symm) fun k inside within => ?_
  have value : Machine.valueFor? cells.toList 0 k = some cells.toArray[k] := by
    rw [cells.size_toArray] at within
    simp [Machine.valueFor?, within]
  have small : (k : Int) < 1024 := by simpa using within
  have filled : (s.machine.load (some p.image) cells.toList 0).data[k]? =
      some ((Machine.valueFor? cells.toList 0 k).getD 0) :=
    s.machine.getElem?_load (some p.image) (by decide) (by decide) (by simp)
      (by rw [sizes]; exact small) (by omega)
  rw [value, Array.getElem?_eq_getElem inside] at filled
  exact Option.some.inj filled

/-- A session at the start of a program is still there when a data cell was changed. -/
theorem AtStart.poke (start : s.AtStart program) {address : Nat} (inside : address < 1024)
    (value : Int32) :
    ∃ t, s.poke address value = .ok t ∧ t.AtStart program ∧
      t.machine.data = s.machine.data.set! address value := by
  obtain ⟨code, executes, view, cycles, fault, bound, size⟩ := start
  have cell : s.machine.hasCell address = true := (s.machine.hasCell_eq_true_iff _).mpr (by omega)
  refine ⟨{ s with machine := { s.machine with data := s.machine.data.set! address value } },
    ?_, ⟨code, executes, ?_, cycles, fault, bound, ?_⟩, rfl⟩
  · simp [Session.poke, Machine.poke, cell, Except.map]
  · obtain ⟨stack, -, ip, flags, halted⟩ := Reference.State.mk.inj view
    simp only [Machine.view, stack, ip, flags, halted]
    rfl
  · simpa using size

/-! ### Ends -/

/-- Words that stand for the same integers are the same. -/
theorem eq_of_map_toInt {a b : List Int32} (same : a.map Int32.toInt = b.map Int32.toInt) :
    a = b :=
  (List.map_inj_right fun _ _ => Int32.toInt_inj.mp).mp same

/-- A run has come to a halt without an error, with a number of cycles, a stack, bottom first, and
data cells. -/
structure Halts (outcome : Session × Option RuntimeError) (cycles : Nat) (stack : List Int32)
    (data : Array Int32) : Prop where
  unharmed : outcome.2 = none
  halted : outcome.1.machine.halted = true
  cycles : outcome.1.machine.cycles = cycles
  stack : outcome.1.machine.stack.toList = stack
  data : outcome.1.machine.data = data

/-- A run has been stopped by an error, with data cells. -/
structure Faults (outcome : Session × Option RuntimeError) (error : RuntimeError)
    (data : Array Int32) : Prop where
  error : outcome.2 = some error
  halted : outcome.1.machine.halted = true
  data : outcome.1.machine.data = data

namespace AtStart

variable {n k : Nat} {r : Reference.State} {stack : List Int32} {data : Array Int32}
  {operand address : Int32} {below : List Int} {flags : Flags} {budget : Int}

/-- The machine takes the steps of the reference machine. -/
theorem arrives (start : s.AtStart program)
    (steps : Steps 256 program n (.at 0 [] (s.machine.data.toList.map Int32.toInt) {}) r) :
    s.machine.Arrives n r (Machine.step^[n] s.machine) := by
  have depth : s.machine.view.stack.length = s.machine.stack.depth := s.machine.length_view_stack
  rw [start.view] at depth
  refine Machine.arrives_iterate start.executes ?_ ?_
  · rw [start.bound, ← depth]
    show ((0 : Nat) : Int) ≤ 256
    decide
  · rw [start.bound, start.view]
    exact steps

/-- A run halts where the reference machine halts. -/
theorem halts (start : s.AtStart program)
    (steps : Steps 256 program n (.at 0 [] (s.machine.data.toList.map Int32.toInt) {}) r)
    (halted : r.halted = true) (entries : r.stack = stack.reverse.map Int32.toInt)
    (cells : r.data = data.toList.map Int32.toInt) (enough : n ≤ budget) :
    Halts (s.run budget) n stack data := by
  have arrived := start.arrives steps
  have view := arrived.view
  have stopped : (Machine.step^[n] s.machine).halted = true := by
    rw [← view] at halted
    exact halted
  have ended : (s.run budget).1.machine = Machine.step^[n] s.machine :=
    Machine.run_of_halted stopped enough
  have fault := arrived.fault.trans start.fault
  rw [← view] at entries cells
  refine ⟨?_, ended ▸ stopped, ?_, ?_, ?_⟩
  · rw [← ended] at fault
    exact Option.map_eq_none_iff.mpr fault
  · rw [ended, arrived.cycles, start.cycles, Nat.zero_add]
  · rw [ended, Stack.toList, eq_of_map_toInt entries, List.reverse_reverse]
  · rw [ended]
    exact Array.toList_inj.mp (eq_of_map_toInt cells)

/-- A run faults on a load from a cell that does not exist. -/
theorem faults_on_load (start : s.AtStart program)
    (steps : Steps 256 program n (.at 0 [] (s.machine.data.toList.map Int32.toInt) {})
      (.at k (address.toInt :: below) (data.toList.map Int32.toInt) flags))
    (there : program[k]? = some (.ofOpcode .load operand))
    (outside : ¬ (0 ≤ address.toInt ∧ address.toInt ≤ 1023)) (enough : (n + 1 : Nat) ≤ budget) :
    Faults (s.run budget)
      ⟨s.program.lineAt k,
        ⟨k, (Instr.ofOpcode .load operand).encode, .badAddress address.toInt⟩⟩ data := by
  have arrived := start.arrives steps
  have size : data.size = 1024 := by
    have length := steps.length_data
    simpa [start.size] using length
  obtain ⟨entries, cells, place, -, running⟩ := Reference.State.mk.inj arrived.view
  obtain rfl := Array.toList_inj.mp (eq_of_map_toInt cells)
  obtain ⟨top, rest, items, same, -⟩ := List.map_eq_cons_iff.mp entries
  obtain rfl := Int32.toInt_inj.mp same
  have fetch : (Machine.step^[n] s.machine).fetch? =
      some (Instr.ofOpcode .load operand).encode := by
    have code : (Machine.step^[n] s.machine).code = s.machine.code := by
      rw [Machine.code, arrived.image, Machine.code]
    rw [Machine.fetch?, place, if_neg (by omega), code, Int.toNat_natCast, ← Array.getElem?_toList,
      start.code, List.getElem?_map, there, Option.map_some]
  have faulty : (Machine.step^[n] s.machine).Faulty (Instr.ofOpcode .load operand).encode
      (.badAddress top.toInt) := by
    have decodes : Opcode.ofTag? (Instr.wordTag (Instr.ofOpcode .load operand).encode) =
        some .load := by
      rw [Instr.wordTag_encode]
      exact Opcode.ofTag?_tag .load
    refine .blocked decodes (.noCell top rest (.inl rfl) ?_ items ?_)
    · rw [Stack.counted, items]
      exact Nat.le_add_left 1 rest.length
    · omega
  have ended : (s.run budget).1.machine = _ := Machine.run_of_faulty running fetch faulty enough
  refine ⟨?_, by rw [ended], by rw [ended]⟩
  show ((s.run budget).1.machine.fault).map
    (RuntimeError.mk (s.program.lineAt (s.run budget).1.machine.ip)) = _
  rw [ended, Option.map_some, place]

end AtStart

end Session

end StackMachine
