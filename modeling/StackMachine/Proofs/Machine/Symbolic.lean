import StackMachine.Machine.Snapshot
import StackMachine.Proofs.Machine.Budgets
import StackMachine.Proofs.Machine.Consistency

/-!
# Machines without words

A symbolic machine has a list of instructions in the place of words: it neither decodes
nor encodes. A machine whose words can all be decoded behaves like the symbolic machine of
its instructions, and so does a machine with the program of these instructions. What the
words hold beyond their instructions is seen in the instruction memory and in the word of a
fault, and nowhere else.

## Main definitions

* `Symbolic`, `Symbolic.advance`, `Symbolic.run`: symbolic machines and their steps and runs.
* `Machine.symbolic`: a machine without its words.
* `Machine.Executes`: the words of a machine are decoded to given instructions.
* `Snapshot.AgreesButForWords`: two snapshots that differ in words only.

## Main results

* `Machine.execute_wordless`: an instruction neither reads nor writes words.
* `Machine.symbolic_step`, `Machine.symbolic_run`: steps and runs are those of the symbolic machine.
* `Machine.packed_simulates_symbolic`: packed words, encoded instructions and symbolic machine.
-/

namespace StackMachine

/-! ### Decoding twice -/

namespace Instr

/-- A word can hold the instruction that it was decoded to. -/
theorem encodable_of_decode? {word : UInt32} {i : Instr} (h : decode? word = some i) :
    i.Encodable := by
  obtain ⟨op, -, rfl⟩ := exists_of_decode? h
  simp only [Encodable, ofOpcode, Opcode.tagTakesOperand_tag]
  cases op.takesOperand with
  | false => rfl
  | true => exact wordOperand_bounds word

/-- An instruction that was decoded from some word comes back from its own. -/
theorem decode?_encode_of_decode? {word : UInt32} {i : Instr} (h : decode? word = some i) :
    decode? i.encode = some i := by
  refine (decode?_encode_eq_some_iff ?_).mpr (encodable_of_decode? h)
  obtain ⟨op, -, rfl⟩ := exists_of_decode? h
  simp [ofOpcode, Opcode.ofTag?_tag]

theorem isSome_decode? (word : UInt32) :
    (decode? word).isSome = (Opcode.ofTag? (wordTag word)).isSome := by
  rw [decode?_eq, Option.isSome_map]

/-- The instructions of some words; a word without an instruction is passed over. -/
def decodeAll (words : List UInt32) : List Instr :=
  words.filterMap decode?

/-- Words whose tags are all defined have an instruction each. -/
theorem map_decode?_eq {words : List UInt32}
    (defined : ∀ word ∈ words, (Opcode.ofTag? (wordTag word)).isSome = true) :
    words.map decode? = (decodeAll words).map some := by
  induction words with
  | nil => rfl
  | cons word rest ih =>
    obtain ⟨first, others⟩ := List.forall_mem_cons.mp defined
    rw [← isSome_decode?] at first
    obtain ⟨i, decodes⟩ := Option.isSome_iff_exists.mp first
    rw [decodeAll, List.filterMap_cons_some decodes, List.map_cons, List.map_cons, decodes,
      ih others, decodeAll]

/-- The words of instructions that were decoded are decoded to the same instructions. -/
theorem map_decode?_encode (words : List UInt32) :
    ((decodeAll words).map encode).map decode? = (decodeAll words).map some := by
  rw [List.map_map]
  refine List.map_congr_left fun i member => ?_
  obtain ⟨word, -, decodes⟩ := List.mem_filterMap.mp member
  exact decode?_encode_of_decode? decodes

end Instr

/-- The image of a program of bare instructions holds their words. -/
theorem Program.image_ofInstrs (instrs : List Instr) :
    (ofInstrs instrs).image = (instrs.map Instr.encode).toArray := by
  refine Array.toList_inj.mp (List.ext_getElem (by simp [image, ofInstrs]) fun k _ _ => ?_)
  simp [image, ofInstrs]

/-! ### Symbolic machines -/

/-- Why a symbolic machine stopped: where, the cause, and the wording of both. -/
structure Symbolic.Stop where
  /-- The address of the instruction. -/
  ip : Int
  /-- Why it could not be executed. -/
  cause : FaultCause
  /-- The wording. -/
  message : Text
  deriving DecidableEq

/-- A machine that executes instructions for which there are no words. -/
structure Symbolic where
  /-- Its registers, memories and history; there is neither an image nor a fault with a word. -/
  machine : Machine
  /-- Why it stopped, if an instruction could not be executed. -/
  stop : Option Symbolic.Stop

namespace Symbolic

/-- The instruction at the instruction pointer. -/
def fetch? (program : List Instr) (s : Symbolic) : Option Instr :=
  if s.machine.ip < 0 then none else program[s.machine.ip.toNat]?

/-- What stops a machine at an instruction. -/
def stopAt (ip : Int) (i : Instr) (cause : FaultCause) : Stop where
  ip := ip
  cause := cause
  message := Message.render "ip %d '%v' %v" [.int ip, i.text, .text cause.message]

/-- Executes the instruction at the instruction pointer. Outside of its program the machine
halts. -/
def advance (program : List Instr) (s : Symbolic) : Symbolic :=
  if s.machine.halted then s
  else
    match s.fetch? program with
    | none => { s with machine := { s.machine with halted := true } }
    | some i =>
      match { s.machine with current := i.text }.execute i with
      | (next, some cause) =>
        ⟨{ next with halted := true }, some (stopAt next.ip i cause)⟩
      | (next, none) => { s with machine := next.record s.machine.ip }

/-- At most `n` instructions. -/
def run (program : List Instr) (n : Nat) (s : Symbolic) : Symbolic :=
  (advance program)^[n] s

end Symbolic

/-- What a fault says without its word. -/
def Fault.wordless (f : Fault) : Symbolic.Stop where
  ip := f.ip
  cause := f.cause
  message := f.message

/-- A fault is worded by the instruction that its word is decoded to. -/
theorem Fault.wordless_of_decode? {word : UInt32} {i : Instr}
    (decodes : Instr.decode? word = some i) (ip : Int) (cause : FaultCause) :
    Fault.wordless ⟨ip, word, cause⟩ = Symbolic.stopAt ip i cause := by
  rw [Fault.wordless, Fault.message, decodes, Symbolic.stopAt]

namespace Machine

variable {m : Machine} {program : List Instr}

/-- A machine without its image and its fault. -/
def wordless (m : Machine) : Machine :=
  { m with image := none, fault := none }

/-- The symbolic machine that a machine looks like. -/
def symbolic (m : Machine) : Symbolic where
  machine := m.wordless
  stop := m.fault.map Fault.wordless

/-! ### Steps -/

/-- An instruction neither reads nor writes the words of a machine. -/
theorem execute_wordless (m : Machine) (i : Instr) :
    m.wordless.execute i = ((m.execute i).1.wordless, (m.execute i).2) := by
  have kept : (m.execute i).1.inFrame m.wordless = (m.execute i).1.wordless :=
    congrArg wordless (frame_execute m i).inFrame_eq
  rw [← kept]
  exact execute_inFrame m m.wordless i

/-- The words of a machine are decoded to the instructions of a program. -/
def Executes (m : Machine) (program : List Instr) : Prop :=
  m.code.toList.map Instr.decode? = program.map some

theorem Executes.fetch? (executes : m.Executes program) :
    m.fetch?.map Instr.decode? = (m.symbolic.fetch? program).map some := by
  have each := congrArg (·[m.ip.toNat]?) executes
  simp only [List.getElem?_map, Array.getElem?_toList] at each
  unfold Machine.fetch? Symbolic.fetch?
  show (if m.ip < 0 then none else _).map _ = (if m.ip < 0 then none else _).map _
  split
  · rfl
  · exact each

/-- A step of a machine is a step of the symbolic machine. -/
theorem symbolic_step (executes : m.Executes program) :
    m.step.symbolic = m.symbolic.advance program := by
  have fetched := executes.fetch?
  unfold Symbolic.advance
  show _ = if m.halted then _ else _
  cases running : m.halted with
  | true =>
    rw [step_of_halted running]
    rfl
  | false =>
    rw [step]
    cases found : m.symbolic.fetch? program with
    | none =>
      rw [found, Option.map_none, Option.map_eq_none_iff] at fetched
      rw [advance_of_outside running fetched]
      rfl
    | some i =>
      rw [found, Option.map_some, Option.map_eq_some_iff] at fetched
      obtain ⟨word, fetch, decodes⟩ := fetched
      have shown : Instr.describeWord word = i.text := by rw [Instr.describeWord, decodes]
      have executed : { m.symbolic.machine with current := i.text }.execute i =
          (((m.fetched word).execute i).1.wordless, ((m.fetched word).execute i).2) := by
        rw [← execute_wordless, Machine.fetched, shown]
        rfl
      have frame := frame_execute (m.fetched word) i
      rcases outcome : (m.fetched word).execute i with ⟨next, _ | cause⟩
      · rw [outcome] at executed frame
        rw [advance_of_success running fetch decodes outcome]
        simp only [executed, Bool.false_eq_true, if_false]
        have fault : next.fault = m.fault := frame.fault
        simp only [symbolic, record, fault]
        rfl
      · rw [outcome] at executed
        rw [advance_of_fault running fetch decodes outcome]
        simp only [executed, Bool.false_eq_true, if_false]
        rw [symbolic, stop, Option.map_some, Fault.wordless_of_decode? decodes]
        rfl

/-! ### Runs -/

theorem Executes.step (executes : m.Executes program) : m.step.Executes program := by
  unfold Executes code at executes ⊢
  rw [Machine.step, image_advance]
  exact executes

/-- A run of a machine is a run of the symbolic machine. -/
theorem symbolic_run (executes : m.Executes program) (budget : Int) :
    (m.run budget).symbolic = m.symbolic.run program budget.toNat := by
  rw [run, runFor_eq_iterate, Symbolic.run]
  generalize budget.toNat = n
  induction n generalizing m with
  | zero => rfl
  | succ n ih =>
    rw [Function.iterate_succ_apply, Function.iterate_succ_apply, ih executes.step,
      symbolic_step executes]

/-! ### Loaded machines -/

theorem executes_load (m : Machine) {image : Option (Array UInt32)} (values : List Int32)
    (start : Int) (h : (image.getD #[]).toList.map Instr.decode? = program.map some) :
    (m.load image values start).Executes program :=
  h

end Machine

/-- Two snapshots differ in the instruction memory and the word of a fault only. -/
structure Snapshot.AgreesButForWords (a b : Snapshot) : Prop where
  /-- Everything but the instruction memory and the fault is the same. -/
  registers : { a with image := b.image, fault := b.fault } = b
  /-- There is a fault in both or in none, at the same address and for the same cause. -/
  fault : (a.fault.map fun f => (f.ip, f.cause)) = b.fault.map fun f => (f.ip, f.cause)
  /-- The wording of the fault is the same. -/
  error : a.error = b.error

namespace Machine

/-- Machines that look like the same symbolic machine show the same but for words. -/
theorem agrees_of_symbolic_eq {a b : Machine} (same : a.symbolic = b.symbolic) :
    a.snapshot.AgreesButForWords b.snapshot := by
  have parts := congrArg Symbolic.machine same
  have stops := congrArg Symbolic.stop same
  simp only [symbolic] at parts stops
  refine ⟨?_, ?_, ?_⟩
  · have shown (m : Machine) :
        m.wordless.snapshot = { m.snapshot with image := none, fault := none } := rfl
    have views := congrArg snapshot parts
    rw [shown, shown] at views
    exact congrArg
      (fun s : Snapshot => { s with image := b.snapshot.image, fault := b.snapshot.fault }) views
  · have places := congrArg (Option.map fun s : Symbolic.Stop => (s.ip, s.cause)) stops
    rw [Option.map_map, Option.map_map] at places
    exact places
  · have wordings := congrArg (Option.map Symbolic.Stop.message) stops
    rw [Option.map_map, Option.map_map] at wordings
    exact congrArg (Option.getD · []) wordings

/-- **The packed machine simulates the symbolic one.** Take words whose tags are all defined, with
anything in the bits that their operations do not use, and the instructions that they are decoded
to. Loaded with the words or with the program of the instructions, with the same data, a machine
runs for every budget like the symbolic machine of the instructions, and the two snapshots differ in
the instruction memory and the word of a fault only. -/
theorem packed_simulates_symbolic (m : Machine) (image : Option (Array UInt32))
    (values : List Int32) (start : Int)
    (defined : ∀ word ∈ image.getD #[], (Opcode.ofTag? (Instr.wordTag word)).isSome = true)
    (budget : Int) :
    let instrs := Instr.decodeAll (image.getD #[]).toList
    let packed := (m.load image values start).run budget
    let encoded := (m.load (some (Program.ofInstrs instrs).image) values start).run budget
    let symbolic := (m.load none values start).symbolic.run instrs budget.toNat
    packed.symbolic = symbolic ∧ encoded.symbolic = symbolic ∧
      packed.snapshot.AgreesButForWords encoded.snapshot := by
  intro instrs packed encoded symbolic
  have decodes : (image.getD #[]).toList.map Instr.decode? = instrs.map some :=
    Instr.map_decode?_eq fun word member => defined word (Array.mem_toList_iff.mp member)
  have again : ((some (Program.ofInstrs instrs).image).getD #[]).toList.map Instr.decode? =
      instrs.map some := by
    rw [Option.getD_some, Program.image_ofInstrs]
    exact Instr.map_decode?_encode _
  have first : packed.symbolic = symbolic :=
    symbolic_run (m.executes_load values start decodes) budget
  have second : encoded.symbolic = symbolic :=
    symbolic_run (m.executes_load values start again) budget
  exact ⟨first, second, agrees_of_symbolic_eq (first.trans second.symm)⟩

/-- A push, a pop and a duplication, the last two with bits that they do not use. -/
private def untidyWords : Array UInt32 :=
  #[0xFFFFFF10, 0xABCDEF11, 0x12345612]

/-- A machine that keeps two history entries, after at most five steps with an image. -/
private def untidyRun (image : Array UInt32) : Machine :=
  ((new { traceDepth := 2 }).load (some image) [7] 3).run 5

/-- The duplication finds an empty stack; its unused bits show in the word of the fault only. -/
theorem packed_simulates_symbolic_untidy :
    (untidyRun untidyWords).fault = some ⟨2, 0x12345612, .stackEmpty⟩ ∧
    (untidyRun #[0xFFFFFF10, 0x11, 0x12]).fault = some ⟨2, 0x12, .stackEmpty⟩ ∧
    (untidyRun untidyWords).snapshot.AgreesButForWords
      (untidyRun #[0xFFFFFF10, 0x11, 0x12]).snapshot := by
  have checked : untidyWords.toList.all
      (fun word => (Opcode.ofTag? (Instr.wordTag word)).isSome) = true := by
    decide
  have defined : ∀ word ∈ untidyWords, (Opcode.ofTag? (Instr.wordTag word)).isSome = true :=
    fun word member => List.all_eq_true.mp checked word (Array.mem_toList_iff.mpr member)
  obtain ⟨-, -, agrees⟩ :=
    packed_simulates_symbolic (new { traceDepth := 2 }) (some untidyWords) [7] 3 defined 5
  have tidy : (Program.ofInstrs (Instr.decodeAll untidyWords.toList)).image =
      #[0xFFFFFF10, 0x11, 0x12] := by
    rw [Program.image_ofInstrs]
    decide
  rw [Option.getD_some, tidy] at agrees
  exact ⟨by decide +kernel, by decide +kernel, agrees⟩

end Machine

end StackMachine
