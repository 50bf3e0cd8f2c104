import StackMachine.Assembly.Expression.Eval
import StackMachine.Proofs.Assembly.Encoding
import StackMachine.Proofs.Lookup
import StackMachine.Proofs.Machine.Consistency
import StackMachine.Session

/-!
# Listing, image and execution agree

A session holds its program three times: as statements, as the words that every start
begins with, and as the instruction memory of its machine. Whatever is done with a session,
the three agree: the machine has the words of the session, an address is looked up to the
instruction that its word is decoded to, and the next step executes the word that is shown
for it, or faults on it. Words without an instruction leave gaps among the statements.

## Main definitions

* `Program.Lists`: a program lists the instructions of some words.
* `Session.Agrees`: the three forms of the program in a session agree.
* `Session.Call`, `Session.Call.apply`, `Session.uses`: the uses of a session and what they make of
  it.
* `Session.Reachable`: the sessions that uses lead to.
* `Machine.StepsOn`: a step executes a given word or faults on it.

## Main results

* `Assembler.lists_of_parse`, `Session.lists_statementsFrom`: assembled programs list their images,
  and statements of words list the words.
* `Session.Agrees.apply`: every use keeps the agreement.
* `Session.forms_of_program_agree`: listing, image, inspection and execution in every session.
-/

namespace StackMachine

open Assembly (Interpreter)

/-! ### Listings of words -/

/-- The program has at every address of some words the instruction that the word is decoded to, and
no statement where the word has none. -/
def Program.Lists (p : Program) (words : Array UInt32) : Prop :=
  ∀ (k : Nat) (word : UInt32), words[k]? = some word →
    (p.at? k).map (·.instr) = Instr.decode? word

/-- A statement whose position is its address is found there. -/
theorem Program.at?_of_placed {p : Program} {k : Nat} {statement : Statement}
    (found : p.statements[k]? = some statement) (placed : statement.ip = k) :
    p.at? k = some statement := by
  have direct : p.direct? k = some statement := by
    simp [direct?, found, placed, Int.not_lt.mpr (Int.natCast_nonneg k)]
  rw [at?, direct, Option.some_or]

/-- An accepted program of at most `2 ^ 23` statements lists its image. -/
theorem Assembler.lists_of_parse [Interpreter] {a : Assembler} {source : Text} {p : Program}
    (accepted : (a.parse source).2 = .ok p) (small : p.size ≤ 2 ^ 23) : p.Lists p.image := by
  obtain ⟨r, sound, settled, resolvable, rfl⟩ := exists_reader_of_parse accepted
  have size := r.size_program
  have linked : r.program.WellLinked :=
    Assembly.Reader.program_wellLinked sound settled resolvable (by omega)
  intro k word found
  obtain ⟨statement, there, rfl⟩ : ∃ statement, r.program.statements[k]? = some statement ∧
      statement.instr.encode = word := by
    simpa [Program.image, Option.map_eq_some_iff] using found
  have member := Array.mem_of_getElem? there
  have defined := r.program_defined sound statement member
  rw [Program.at?_of_placed there (linked.placed k statement there), Option.map_some]
  cases link : statement.link with
  | none => exact (linked.decode?_of_literal member defined link).symm
  | some name =>
    -- the address of a label is an address of the program, and has 24 bits
    obtain ⟨entry, agrees⟩ := linked.decode?_iff_of_link member defined link
    obtain ⟨-, -, inside⟩ := linked.named name _ entry
    exact (agrees.mpr (by omega)).symm

namespace Session

/-! ### Statements of words -/

/-- A statement of some words lies at the address of a word that is decoded to it. -/
theorem exists_word_of_mem_statementsFrom {base : Nat} {words : List UInt32}
    {statement : Statement} (member : statement ∈ statementsFrom base words) :
    ∃ k word, words[k]? = some word ∧ statement.ip = ((base + k : Nat) : Int) ∧
      Instr.decode? word = some statement.instr := by
  induction words generalizing base with
  | nil => cases member
  | cons word rest ih =>
    have later (h : statement ∈ statementsFrom (base + 1) rest) :
        ∃ k word', (word :: rest)[k]? = some word' ∧ statement.ip = ((base + k : Nat) : Int) ∧
          Instr.decode? word' = some statement.instr := by
      obtain ⟨k, word', found, place, decodes⟩ := ih h
      exact ⟨k + 1, word', by simpa using found, by omega, decodes⟩
    cases decodes : Instr.decode? word with
    | none =>
      simp only [statementsFrom, decodes] at member
      exact later member
    | some i =>
      simp only [statementsFrom, decodes] at member
      rcases List.mem_cons.mp member with rfl | behind
      · exact ⟨0, word, rfl, rfl, decodes⟩
      · exact later behind

/-- A word with an instruction has a statement at its address. -/
theorem exists_mem_statementsFrom {base k : Nat} {words : List UInt32} {word : UInt32} {i : Instr}
    (found : words[k]? = some word) (decodes : Instr.decode? word = some i) :
    ∃ statement ∈ statementsFrom base words,
      statement.ip = ((base + k : Nat) : Int) ∧ statement.instr = i := by
  induction words generalizing base k with
  | nil => cases found
  | cons first rest ih =>
    cases k with
    | zero =>
      cases found
      simp only [statementsFrom, decodes]
      exact ⟨_, List.mem_cons_self, rfl, rfl⟩
    | succ k =>
      obtain ⟨statement, member, place, instr⟩ := @ih (base + 1) k (by simpa using found)
      refine ⟨statement, ?_, by omega, instr⟩
      unfold statementsFrom
      split
      · exact member
      · exact List.mem_cons_of_mem _ member

theorem pairwise_statementsFrom (base : Nat) (words : List UInt32) :
    (statementsFrom base words).Pairwise fun a b => a.ip < b.ip := by
  induction words generalizing base with
  | nil => exact List.Pairwise.nil
  | cons word rest ih =>
    unfold statementsFrom
    split
    · exact ih (base + 1)
    · refine List.pairwise_cons.mpr ⟨fun later member => ?_, ih (base + 1)⟩
      obtain ⟨k, -, -, place, -⟩ := exists_word_of_mem_statementsFrom member
      rw [place]
      exact Int.ofNat_lt.mpr (by omega)

/-- Statements of words are in the order of their addresses, gaps or not. -/
theorem ordered_statementsFrom {words : List UInt32} (sized : words.length < 2 ^ 63) :
    Program.Ordered { statements := (statementsFrom 0 words).toArray } := by
  refine Program.ordered_of_pairwise (pairwise_statementsFrom 0 words) fun statement member => ?_
  obtain ⟨k, word, found, place, -⟩ :=
    exists_word_of_mem_statementsFrom (List.mem_toArray.mp member)
  obtain ⟨inside, -⟩ := List.getElem?_eq_some_iff.mp found
  omega

/-- The statements of some words list the words. -/
theorem lists_statementsFrom {words : Array UInt32} (sized : words.size < 2 ^ 63) :
    Program.Lists { statements := (statementsFrom 0 words.toList).toArray } words := by
  intro k word found
  have ordered : Program.Ordered { statements := (statementsFrom 0 words.toList).toArray } :=
    ordered_statementsFrom (by simpa using sized)
  obtain ⟨inside, -⟩ := Array.getElem?_eq_some_iff.mp found
  have lookup (statement : Statement) :=
    @Program.Ordered.at?_eq_some_iff _ k statement ordered (by omega) (by omega)
  rw [← Array.getElem?_toList] at found
  cases decodes : Instr.decode? word with
  | none =>
    rw [Option.map_eq_none_iff, Option.eq_none_iff_forall_ne_some]
    intro statement result
    obtain ⟨member, place⟩ := (lookup statement).mp result
    obtain ⟨j, other, there, address, decoded⟩ :=
      exists_word_of_mem_statementsFrom (List.mem_toArray.mp member)
    obtain rfl : j = k := by omega
    rw [found] at there
    cases there
    rw [decodes] at decoded
    cases decoded
  | some i =>
    obtain ⟨statement, member, place, rfl⟩ := @exists_mem_statementsFrom 0 _ _ _ _ found decodes
    rw [(lookup statement).mpr ⟨List.mem_toArray.mpr member, by omega⟩, Option.map_some]

/-! ### Uses of a session -/

/-- A use of a session. -/
inductive Call where
  /-- Assembles and loads a source text. -/
  | compile (source : Text)
  /-- Loads instruction words. -/
  | loadWords (words : Option (Array UInt32))
  /-- Gives the data that later starts begin with. -/
  | setData (values : List Int32) (start : Int)
  /-- Goes back to the start. -/
  | reset
  /-- Executes one instruction. -/
  | step
  /-- Executes until the machine halts or the budget is spent. -/
  | run (budget : Int)
  /-- Writes a data cell. -/
  | poke (address : Int) (value : Int32)

namespace Call

/-- What a use makes of a session. A source text that is refused changes nothing, and neither does
writing to a cell that does not exist. -/
def apply [Interpreter] : Call → Session → Session
  | compile source, s => (s.compile source).toOption.getD s
  | loadWords words, s => s.loadWords words
  | setData values start, s => { s with data := values, dataStart := start }
  | reset, s => s.reset
  | step, s => s.step.1
  | run budget, s => (s.run budget).1
  | poke address value, s => (s.poke address value).toOption.getD s

/-- What a use brings into a session has addresses that fit: an operand can hold the address of
every statement of a source text that is accepted, and addresses of words are 64-bit integers. -/
def Fits [Interpreter] (s : Session) : Call → Prop
  | compile source => ∀ p, (s.assembler.parse source).2 = .ok p → p.size ≤ 2 ^ 23
  | loadWords words => (words.getD #[]).size < 2 ^ 63
  | setData .. | reset | step | run _ | poke .. => True

end Call

variable {s : Session}

section Uses

variable [Interpreter]

/-- A session after some uses, the first of which stands first. -/
def uses (s : Session) (calls : List Call) : Session :=
  calls.foldl (fun s call => call.apply s) s

/-- The sessions that uses lead to, beginning with nothing loaded. -/
inductive Reachable (config : Config) : Session → Prop
  | new : Reachable config (new config)
  | use {s : Session} (reached : Reachable config s) (call : Call) (fits : call.Fits s) :
      Reachable config (call.apply s)

/-! ### The agreement -/

/-- The machine has the words of the session, and the program lists them. -/
structure Agrees (s : Session) : Prop where
  image : s.machine.image = s.image
  listed : s.program.Lists s.words

omit [Interpreter] in
theorem agrees_new (config : Config) : (new config).Agrees where
  image := rfl
  listed := by
    intro k word found
    simp [new, words] at found

omit [Interpreter] in
theorem agrees_reset (listed : s.program.Lists s.words) : s.reset.Agrees where
  image := rfl
  listed := listed

/-- A source text compiles exactly if it is parsed, and then to the session with its program. -/
theorem compile_eq_ok_iff {source : Text} {next : Session} :
    s.compile source = .ok next ↔
      ∃ p, (s.assembler.parse source).2 = .ok p ∧ next = s.load p := by
  unfold Session.compile
  cases (s.assembler.parse source).2 with
  | error error => simp [Except.map]
  | ok p => simp [Except.map, eq_comm]

/-- A source text that is accepted leads to the session with its program. -/
theorem Call.apply_compile_of_ok {source : Text} {next : Session}
    (accepted : s.compile source = .ok next) : (compile source).apply s = next := by
  simp only [apply, accepted]
  rfl

/-- A source text that is refused changes nothing. -/
theorem Call.apply_compile_of_error {source : Text} {error : Assembly.SyntaxError}
    (refused : s.compile source = .error error) : (compile source).apply s = s := by
  simp only [apply, refused]
  rfl

theorem Agrees.compile (agrees : s.Agrees) {source : Text}
    (fits : (Call.compile source).Fits s) : ((Call.compile source).apply s).Agrees := by
  cases parsed : (s.assembler.parse source).2 with
  | error error =>
    have refused : s.compile source = .error error := by rw [Session.compile, parsed]; rfl
    rw [Call.apply_compile_of_error refused]
    exact agrees
  | ok p =>
    have accepted : s.compile source = .ok (s.load p) := compile_eq_ok_iff.mpr ⟨p, parsed, rfl⟩
    have listed := Assembler.lists_of_parse parsed (fits p parsed)
    rw [Call.apply_compile_of_ok accepted]
    exact agrees_reset (s := { s with program := p, image := some p.image }) listed

/-- Every use keeps the agreement. -/
theorem Agrees.apply (agrees : s.Agrees) {call : Call} (fits : call.Fits s) :
    (call.apply s).Agrees := by
  cases call with
  | compile source => exact agrees.compile fits
  | loadWords words => exact agrees_reset (lists_statementsFrom fits)
  | setData values start => exact ⟨agrees.image, agrees.listed⟩
  | reset => exact agrees_reset agrees.listed
  | step => exact ⟨s.machine.image_advance.trans agrees.image, agrees.listed⟩
  | run budget =>
    have kept : (s.machine.run budget).image = s.machine.image :=
      @Machine.image_apply s.machine (.run budget) rfl
    exact ⟨kept.trans agrees.image, agrees.listed⟩
  | poke address value =>
    simp only [Call.apply, Session.poke, Machine.poke]
    split
    · exact ⟨agrees.image, agrees.listed⟩
    · exact agrees

theorem Reachable.agrees {config : Config} (reached : Reachable config s) : s.Agrees := by
  induction reached with
  | new => exact agrees_new config
  | use _ call fits ih => exact ih.apply fits

end Uses

theorem Agrees.code_eq_words (agrees : s.Agrees) : s.machine.code = s.words := by
  rw [Machine.code, agrees.image, words]

/-! ### Inspection and execution -/

theorem instruction_eq_ok_iff (s : Session) (ip : Int) (info : InstructionInfo) :
    s.instruction ip = .ok info ↔
      0 ≤ ip ∧ ∃ word, s.words[ip.toNat]? = some word ∧ info = s.describe ip word := by
  unfold instruction
  split
  · simp only [reduceCtorEq, false_iff, not_and]
    omega
  · rename_i inside
    cases found : s.words[ip.toNat]? with
    | none => simp
    | some word => simp [Int.not_lt.mp inside, eq_comm]

theorem exists_instruction_iff (s : Session) (ip : Int) :
    (∃ info, s.instruction ip = .ok info) ↔ 0 ≤ ip ∧ ip < s.words.size := by
  simp only [instruction_eq_ok_iff]
  constructor
  · rintro ⟨info, nonnegative, word, found, -⟩
    obtain ⟨inside, -⟩ := Array.getElem?_eq_some_iff.mp found
    exact ⟨nonnegative, by omega⟩
  · rintro ⟨nonnegative, inside⟩
    have found := Array.getElem?_eq_getElem (show ip.toNat < s.words.size by omega)
    exact ⟨_, nonnegative, _, found, rfl⟩

end Session

/-- A step executes a word, counted and remembered, or faults on it. -/
def Machine.StepsOn (m : Machine) (word : UInt32) (next : Machine) : Prop :=
  (∃ i after, Instr.decode? word = some i ∧ (m.fetched word).execute i = (after, none) ∧
    next = after.record m.ip) ∨
  ∃ cause, m.Faulty word cause ∧ next = (m.fetched word).stop word cause

/-- A step of a running machine executes the word that is fetched or faults on it. -/
theorem Machine.stepsOn_step {m : Machine} {word : UInt32} (running : m.halted = false)
    (fetch : m.fetch? = some word) :
    m.StepsOn word m.step ∧ m.step.current = Instr.describeWord word := by
  have kind := m.advance_kind
  unfold step
  generalize m.advance = result at kind
  cases kind with
  | halted stopped =>
    rw [running] at stopped
    cases stopped
  | outside _ outside =>
    rw [fetch] at outside
    cases outside
  | fault _ found faulty =>
    rw [fetch] at found
    cases found
    exact ⟨.inr ⟨_, faulty, rfl⟩, rfl⟩
  | @success _ op operand next _ found decodes performed =>
    rw [fetch] at found
    cases found
    have frame := frame_perform (m.fetched word) op operand
    rw [performed] at frame
    have executed := (execute_ofOpcode (m.fetched word) op operand).trans performed
    exact ⟨.inl ⟨_, next, decodes, executed, rfl⟩, frame.current⟩

namespace Session

variable {s : Session}

/-- The next step of a running machine is about the word that is told of its instruction. -/
theorem Agrees.stepsOn (agrees : s.Agrees) (running : s.machine.halted = false)
    {info : InstructionInfo} (shown : s.instruction s.machine.ip = .ok info) :
    s.words[s.machine.ip.toNat]? = some info.word ∧
      s.machine.StepsOn info.word s.step.1.machine ∧ s.step.1.machine.current = info.text := by
  obtain ⟨nonnegative, word, found, rfl⟩ := (s.instruction_eq_ok_iff _ info).mp shown
  have fetch : s.machine.fetch? = some word := by
    rw [Machine.fetch?, if_neg (Int.not_lt.mpr nonnegative), agrees.code_eq_words]
    exact found
  exact ⟨found, Machine.stepsOn_step running fetch⟩

/-- **Listing, image and execution agree.** In every session that uses lead to: the instruction
memory of the machine is the image of the session; at every address of the image the program has a
statement exactly if the word is decoded, and then with the decoded instruction; an instruction is
told of exactly at the addresses of the image; if the machine runs and is at such an address, the
next step executes the word that is told or faults on it, and its text becomes the current one; and
a source text that is refused changes nothing. -/
theorem forms_of_program_agree [Interpreter] {config : Config} (reached : Reachable config s) :
    s.machine.image = s.image ∧
    (∀ (k : Nat) (word : UInt32), s.words[k]? = some word →
      (s.program.at? k).map (·.instr) = Instr.decode? word) ∧
    (∀ ip : Int, (∃ info, s.instruction ip = .ok info) ↔ 0 ≤ ip ∧ ip < s.words.size) ∧
    (∀ info, s.machine.halted = false → s.instruction s.machine.ip = .ok info →
      s.words[s.machine.ip.toNat]? = some info.word ∧
        s.machine.StepsOn info.word s.step.1.machine ∧
        s.step.1.machine.current = info.text) ∧
    (∀ source error, s.compile source = .error error → (Call.compile source).apply s = s) := by
  have agrees := reached.agrees
  refine ⟨agrees.image, agrees.listed, s.exists_instruction_iff,
    fun info running shown => agrees.stepsOn running shown,
    fun source error refused => Call.apply_compile_of_error refused⟩

attribute [local instance] Assembly.Expression.interpreter

/-- A session with words of which the second has no instruction, after its first step. -/
private def gapped : Session :=
  Call.step.apply ((Call.loadWords (some #[0x510, 0xFF, 0x99])).apply (new {}))

/-- A source text that refers to a label which is not there. -/
private def mistyped : Text :=
  "loop: jmp lop"

/-- The gap among the statements is where the machine is going to fault. -/
theorem forms_of_program_agree_gapped :
    Reachable {} gapped ∧ gapped.machine.ip = 1 ∧ gapped.machine.halted = false ∧
    gapped.program.at? 1 = none ∧
    (gapped.program.at? 2).map (·.instr) = some (.ofOpcode .halt 0) ∧
    (∃ info, gapped.instruction 1 = .ok info ∧ gapped.machine.StepsOn 0xFF gapped.step.1.machine ∧
      gapped.step.1.machine.current = info.text) ∧
    (¬∃ info, gapped.instruction 3 = .ok info) ∧
    (Call.compile mistyped).apply gapped = gapped := by
  have fits : (Call.loadWords (some #[0x510, 0xFF, 0x99])).Fits (new {}) := by
    show 3 < 2 ^ 63
    decide
  have reached : Reachable {} gapped := .use (.use .new _ fits) .step trivial
  obtain ⟨-, listed, told, next, refused⟩ := forms_of_program_agree reached
  have ip : gapped.machine.ip = 1 := by decide
  have running : gapped.machine.halted = false := by decide
  have missing : gapped.compile mistyped =
      .error ⟨1, "jmp lop", .plain "lop" (.labelMissing "lop")⟩ := by
    have parsed : (gapped.assembler.parse mistyped).2 =
        .error ⟨1, "jmp lop", .plain "lop" (.labelMissing "lop")⟩ := by
      decide +kernel
    rw [compile, parsed]
    rfl
  refine ⟨reached, ip, running, ?_, listed 2 0x99 (by decide), ?_, ?_, refused _ _ missing⟩
  · exact Option.map_eq_none_iff.mp (listed 1 0xFF (by decide))
  · obtain ⟨info, shown⟩ := (told 1).mpr (by decide)
    obtain ⟨there, steps, current⟩ := next info running (ip ▸ shown)
    have word : info.word = 0xFF := Option.some.inj (there.symm.trans (by decide))
    exact ⟨info, shown, word ▸ steps, current⟩
  · rw [told 3]
    decide

end Session

end StackMachine
