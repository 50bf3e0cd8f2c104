import StackMachine.Assembly.Expression.Eval
import StackMachine.Proofs.Assembly.Relocation
import StackMachine.Proofs.Assembly.WellLinked

/-!
# One source text behind another

Source texts without macros, expressions and mention of the current line can be put together. If
the first defines no equates and they share no labels, the program of both is the program of the
first and behind it that of the second: its statements lie further on, and exactly those operands
that were written as labels have grown by as much.

## Main definitions

* `Statement.relocated`: a linked statement at a later place.
* `Assembly.definesEquate`: whether a line defines an equate.
* `Assembly.Composable`: texts without macros, expressions and mention of the current line.

## Main results

* `Assembly.Reader.continues_readAll`: lines without equates of their own keep the equates.
* `Assembly.Reader.Moved.statements_program`, `Assembly.Reader.Moved.labels_program`: the program of
  lines behind other lines.
* `assemble_append`: the program of two source texts.
-/

namespace StackMachine

namespace Assembly

open State

/-! ### Lines without equates -/

/-- A line without at most `fuel` labels at its front. -/
def withoutLabels : Nat → Text → Text
  | 0, line => line
  | fuel + 1, line =>
    match takeLabel? line with
    | none => line
    | some (_, rest) => withoutLabels fuel rest

/-- Whether a line defines an equate, behind any labels. -/
def definesEquate (raw : Text) : Bool :=
  let line := replaceCharacters (stripComment raw)
  (withoutLabels line.length line).fields.head? = some (Text.ofString ".equ")

theorem defineLabelsWithin_eq_ok {lineNo fuel : Nat} {s t : State} {line rest : Text}
    (h : defineLabelsWithin lineNo fuel s line = (t, .ok rest)) :
    rest = withoutLabels fuel line ∧ t.equates = s.equates := by
  induction fuel generalizing s line with
  | zero =>
    cases h
    exact ⟨rfl, rfl⟩
  | succ fuel ih =>
    rw [defineLabelsWithin] at h
    rw [withoutLabels]
    cases taken : takeLabel? line with
    | none =>
      rw [taken] at h
      cases h
      exact ⟨rfl, rfl⟩
    | some label =>
      simp only [taken] at h
      split_ifs at h
      · cases h
      · cases h
      · have later := ih h
        exact later

theorem equates_emit (s : State) (lineNo : Nat) (words : List Text) :
    (s.emit lineNo words).1.equates = s.equates := by
  unfold emit
  repeat' split
  all_goals rfl

variable {expand : MacroCall → State → Outcome Unit} {lineNo : Nat} {line : Text} {s t : State}

/-- A line that defines no equate keeps all but the one of the current line. -/
theorem sameElsewhere_assembleLineWith [Interpreter] (empty : s.macros = {})
    (unnumbered : Unnumbered line)
    (kept : (withoutLabels (replaceCharacters line).length (replaceCharacters line)).fields.head? ≠
      some (Text.ofString ".equ"))
    (h : assembleLineWith expand lineNo line s = (t, .ok ())) :
    SameElsewhere s.equates t.equates := by
  simp only [assembleLineWith, unnumbered.replaceExpressions] at h
  have macros := macros_defineLabelsWithin lineNo (replaceCharacters line).length (s.atLine lineNo)
    (replaceCharacters line)
  rw [← defineLabels] at macros
  have now : SameElsewhere s.equates (s.atLine lineNo).equates := by
    intro name other
    rw [atLine, Dictionary.find?_set_of_ne _ _ (Ne.symm other)]
  rcases labelled : (s.atLine lineNo).defineLabels lineNo (replaceCharacters line) with
    ⟨u, problem | behind⟩
  · rw [labelled] at h
    cases h
  · rw [labelled] at h macros
    obtain ⟨rfl, equates⟩ := defineLabelsWithin_eq_ok labelled
    have none : u.macros = {} := macros.trans empty
    dsimp only at h
    rw [assembleWords, if_neg kept, none] at h
    have after : t.equates = u.equates := by
      cases replaced : replaceEquates u.equates
          (withoutLabels (replaceCharacters line).length (replaceCharacters line)).fields with
      | nil =>
        rw [replaced] at h
        cases h
        rfl
      | cons name arguments =>
        rw [replaced] at h
        have emitted : u.emit lineNo (name :: arguments) = (t, .ok ()) := h
        rw [← equates_emit u lineNo (name :: arguments), emitted]
    rwa [after, equates]

namespace Reader

/-- The reader `r'` has read `n` lines more than `r`, outside of macro definitions, and there are no
macros and no other equates than before. -/
structure Continues (r r' : Reader) (n : Nat) : Prop where
  closed : r'.openMacro = none
  empty : r'.state.macros = {}
  lineNo : r'.lineNo = r.lineNo + n
  equates : SameElsewhere r.state.equates r'.state.equates

variable {r r' : Reader}

theorem continues_read [Interpreter] (closed : r.openMacro = none) (empty : r.state.macros = {})
    {raw : Text} (unnumbered : Unnumbered raw) (undefining : definesMacro raw = false)
    (noEquate : definesEquate raw = false) (read : r.read raw = (r', none)) :
    r.Continues r' 1 := by
  have kept := macros_read closed undefining
  rw [read] at kept
  have assembled := assembled_of_read undefining closed read r closed
  have emptyNow : (r.advance (stripComment raw)).state.macros = {} := empty
  rw [read] at assembled
  obtain ⟨s, line, rfl⟩ := (assembleCurrent_eq_iff_of_empty emptyNow).mp assembled.symm
  exact ⟨kept.1, kept.2.trans empty, rfl, sameElsewhere_assembleLineWith empty
    unnumbered.stripComment (by simpa [definesEquate] using noEquate) line⟩

/-- Lines that define neither macros nor equates keep the equates. -/
theorem continues_readAll [Interpreter] (closed : r.openMacro = none) (empty : r.state.macros = {})
    {raws : List Text} (unnumbered : ∀ raw ∈ raws, Unnumbered raw)
    (undefining : ∀ raw ∈ raws, definesMacro raw = false)
    (noEquates : ∀ raw ∈ raws, definesEquate raw = false) (read : r.readAll raws = (r', none)) :
    r.Continues r' raws.length := by
  induction raws generalizing r with
  | nil =>
    cases read
    exact ⟨closed, empty, rfl, fun _ _ => rfl⟩
  | cons raw rest ih =>
    rw [List.forall_mem_cons] at unnumbered undefining noEquates
    rcases first : r.read raw with ⟨next, _ | problem⟩
    · rw [readAll_cons_of_read first] at read
      have one := continues_read closed empty unnumbered.1 undefining.1 noEquates.1 first
      have others := ih one.closed one.empty unnumbered.2 undefining.2 noEquates.2 read
      refine ⟨others.closed, others.empty, ?_, fun name other => ?_⟩
      · rw [others.lineNo, one.lineNo, List.length_cons]
        omega
      · rw [one.equates name other, others.equates name other]
    · rw [Reader.readAll, first] at read
      cases read

end Reader

/-- The directive of an equate stands in the line that defines one, so that a text without it
defines none. -/
theorem infix_of_definesEquate {raw : Text} (h : definesEquate raw = true) :
    Text.ofString ".equ" <:+: raw := by
  have part (fuel : Nat) (line : Text) : withoutLabels fuel line <:+: line := by
    induction fuel generalizing line with
    | zero => exact List.infix_rfl
    | succ fuel ih =>
      rw [withoutLabels]
      split
      · exact List.infix_rfl
      · rename_i taken
        exact (ih _).trans (infix_of_takeLabel? taken)
  have directive : Text.ofString ".equ" <:+: replaceCharacters (stripComment raw) := by
    have word := List.mem_of_head? (of_decide_eq_true h)
    exact (Text.infix_of_mem_fields word).trans (part _ _)
  have digitless : Digitless (Text.ofString ".equ") := by simp [Digitless, Text.ofString]
  exact ((within_replaceCharacters _).part _ digitless directive).trans (infix_stripComment raw)

/-! ### Texts that can be put together -/

/-- Texts without macros, expressions and mention of the current line. -/
structure Composable (t : Text) : Prop extends Unnumbered t where
  macroless : ¬ Text.ofString ".macro" <:+: t

theorem composable_iff (t : Text) :
    Composable t ↔
      ¬ Text.ofString "$(" <:+: t ∧ ¬ lineName <:+: t ∧ ¬ Text.ofString ".macro" <:+: t :=
  ⟨fun h => ⟨h.expressionless, h.unnamed, h.macroless⟩, fun h => ⟨⟨h.1, h.2.1⟩, h.2.2⟩⟩

instance : DecidablePred Composable :=
  fun t => decidable_of_iff _ (composable_iff t).symm

theorem Composable.undefining {source raw : Text} (composable : Composable source)
    (part : raw <:+: source) : definesMacro raw = false := by
  unfold definesMacro
  split
  · rename_i directive name rest words
    refine decide_eq_false fun same => composable.macroless ?_
    have word : Text.ofString ".macro" ∈ sourceWords raw := by simp [words, same]
    exact (Text.infix_of_mem_fields word).trans ((infix_stripComment raw).trans part)
  · rfl

end Assembly

/-! ### Programs -/

/-- A linked statement at a place that is `base` statements and `lines` lines further on: so is the
label that its operand stands for, if it was written as one. -/
def Statement.relocated (base lines : Nat) (statement : Statement) : Statement :=
  { statement.moved base lines with
    instr :=
      if statement.link.isSome then
        { statement.instr with operand := statement.instr.operand + Int32.ofInt base }
      else statement.instr }

namespace Assembly

open State

namespace State

variable {front s t : State} {lines : Nat}

namespace Moved

/-- A label is looked up among those of `front` first. -/
theorem labelAddress? (moved : front.Moved lines s t) (name : Text) :
    t.labelAddress? name =
      (front.labelAddress? name).or ((s.labelAddress? name).map (· + front.address)) := by
  have found : (s.labels.map fun label => (label.1, label.2 + front.address)).find? (·.1 = name) =
      (s.labels.find? (·.1 = name)).map fun label => (label.1, label.2 + front.address) := by
    rw [List.find?_map]
    rfl
  rw [State.labelAddress?, moved.labels, List.find?_append, found, State.labelAddress?,
    State.labelAddress?]
  cases front.labels.find? (·.1 = name) with
  | some label => rfl
  | none => cases s.labels.find? (·.1 = name) <;> rfl

theorem resolved_front (moved : front.Moved lines s t) {statement : Statement}
    (resolvable : front.Resolvable statement) :
    t.resolved statement = front.resolved statement := by
  cases link : statement.link with
  | none => rw [resolved_of_literal link, resolved_of_literal link]
  | some name =>
    obtain ⟨address, found⟩ := exists_labelAddress? (resolvable name link)
    simp only [resolved, link, Option.bind_some, moved.labelAddress?, found, Option.some_or]

/-- Linking further on gives what linking alone gives, further on. -/
theorem resolved_moved (moved : front.Moved lines s t) (apart : front.Apart s)
    {statement : Statement} (resolvable : s.Resolvable statement) :
    t.resolved (statement.moved front.address lines) =
      (s.resolved statement).relocated front.address lines := by
  cases link : statement.link with
  | none =>
    have unlinked : (statement.moved front.address lines).link = none := link
    rw [resolved_of_literal link, resolved_of_literal unlinked]
    simp [Statement.relocated, Statement.moved, link]
  | some name =>
    have named := resolvable name link
    obtain ⟨address, found⟩ := exists_labelAddress? named
    have new : front.labelAddress? name = none :=
      (labelAddress?_eq_none_iff front name).mpr (apart name named)
    have further : t.labelAddress? name = some (address + front.address) := by
      rw [moved.labelAddress?, new, found]
      rfl
    simp [resolved, Statement.relocated, Statement.moved, link, found, further, Int32.ofInt_add]

/-- Labels that are used further on are defined if they are where they come from. -/
theorem resolvable (moved : front.Moved lines s t)
    (first : ∀ statement ∈ front.statements, front.Resolvable statement)
    (second : ∀ statement ∈ s.statements, s.Resolvable statement) :
    ∀ statement ∈ t.statements, t.Resolvable statement := by
  have keys : t.labels.map Prod.fst = front.labels.map Prod.fst ++ s.labels.map Prod.fst := by
    simp [moved.labels, Function.comp_def]
  intro statement member name link
  rw [keys, List.mem_append]
  rw [moved.statements] at member
  rcases Array.mem_append.mp member with old | new
  · exact .inl (first statement old name link)
  · obtain ⟨draft, inside, rfl⟩ := Array.mem_map.mp new
    exact .inr (second draft inside name link)

/-- No label stands behind the last statement further on if none does alone. -/
theorem settled (moved : front.Moved lines s t) (sound : front.Sound)
    (first : ∀ label ∈ front.labels, label.2 ≠ front.address)
    (second : ∀ label ∈ s.labels, label.2 ≠ s.address) :
    ∀ label ∈ t.labels, label.2 ≠ t.address := by
  intro label member
  rw [moved.address]
  rw [moved.labels] at member
  rcases List.mem_append.mp member with old | new
  · have inside := (sound.named label old).2
    have other := first label old
    omega
  · obtain ⟨draft, inside, rfl⟩ := List.mem_map.mp new
    have other := second draft inside
    dsimp only
    omega

end Moved

end State

namespace Reader.Moved

variable {front r q : Reader} {lines : Nat}

/-- The program of lines behind those of `front`. -/
theorem statements_program (moved : r.Moved front.state lines q) (apart : front.state.Apart r.state)
    (first : ∀ statement ∈ front.state.statements, front.state.Resolvable statement)
    (second : ∀ statement ∈ r.state.statements, r.state.Resolvable statement) :
    q.program.statements = front.program.statements ++
      r.program.statements.map (Statement.relocated front.state.address lines) := by
  have frontPart : front.state.statements.map q.state.resolved =
      front.state.statements.map front.state.resolved :=
    Array.map_congr_left fun statement member =>
      moved.state.resolved_front (first statement member)
  have movedPart : (r.state.statements.map (Statement.moved front.state.address lines)).map
      q.state.resolved = (r.state.statements.map r.state.resolved).map
        (Statement.relocated front.state.address lines) := by
    rw [Array.map_map, Array.map_map]
    exact Array.map_congr_left fun statement member =>
      moved.state.resolved_moved apart (second statement member)
  have drafts (p : Reader) : p.program.statements = p.state.statements.map p.state.resolved := by
    rw [program, ← Array.toList_map, Array.toArray_toList]
  rw [drafts, drafts, drafts, moved.state.statements, Array.map_append, frontPart, movedPart]

theorem labels_program (moved : r.Moved front.state lines q) :
    q.program.labels = front.program.labels ++
      r.program.labels.map fun label => (label.1, label.2 + (front.state.address : Int)) := by
  simp [program, moved.state.labels, Function.comp_def]

end Reader.Moved

end Assembly

open Assembly

/-- The operand of a linked statement grows by as much as the statement is moved, if it stands for a
label, and is kept otherwise. -/
theorem Program.WellLinked.toInt_relocated {p : Program} (linked : p.WellLinked) {base : Nat}
    (small : base + p.size < 2 ^ 31) (lines : Nat) {statement : Statement}
    (member : statement ∈ p.statements) :
    (statement.relocated base lines).instr.operand.toInt =
      if statement.link.isSome then statement.instr.operand.toInt + base
      else statement.instr.operand.toInt := by
  cases link : statement.link with
  | none => simp [Statement.relocated, link]
  | some name =>
    obtain ⟨-, -, entry⟩ := linked.linked statement member name link
    obtain ⟨-, lower, upper⟩ := linked.named name _ entry
    have exact32 : (Int32.ofInt base).toInt = base :=
      Int32.toInt_ofInt_of_le (by omega) (by omega)
    simp only [Statement.relocated, link, Option.isSome_some, if_true]
    rw [Int32.toInt_add, exact32]
    exact Int.bmod_eq_of_le (by omega) (by omega)

/-- Source texts begin with equates of which none mentions the current line. -/
theorem Assembly.Reader.Continues.moved {front : Reader} {lines : Nat}
    (continues : (Assembler.reader {}).Continues front lines) :
    (Assembler.reader {}).Moved front.state lines front where
  state := {
    statements := by simp [Assembler.reader]
    labels := by simp [Assembler.reader]
    macros := rfl
    macrosMoved := continues.empty
    equates := continues.equates
    unnamed := fun name value other found =>
      (holdsPlain_reader.values name value other found).unnamed }
  closed := rfl
  closedMoved := continues.closed
  lineNo := continues.lineNo

/-- **One source text behind another.** Let two source texts be accepted that hold no macros, no
expressions and no mention of the current line, the first without equates and ended by a line feed,
with no label in both and fewer than `2 ^ 31` statements in all. Then both together are accepted:
their statements are those of the first and behind them those of the second, with addresses that
are larger by the number of statements of the first and lines that are larger by the number of its
lines; the operand is larger by the number of statements exactly if it was written as a label; and
the labels are those of the first and those of the second, at addresses that are larger by as
much. -/
theorem assemble_append [Interpreter] (first second : Text) (p q : Program)
    (ended : first.getLast? = some (.scalar '\n'))
    (acceptedFirst : assemble first = .ok p) (acceptedSecond : assemble second = .ok q)
    (composableFirst : Composable first) (composableSecond : Composable second)
    (noEquates : ∀ raw ∈ (Lines.ofText first).lines, definesEquate raw = false)
    (disjoint : ∀ name ∈ q.labels.map Prod.fst, name ∉ p.labels.map Prod.fst)
    (small : p.size + q.size < 2 ^ 31) :
    ∃ r, assemble (first ++ second) = .ok r ∧
      r.statements = p.statements ++
        q.statements.map (Statement.relocated p.size (first.count (.scalar '\n'))) ∧
      r.labels = p.labels ++ q.labels.map (fun label => (label.1, label.2 + (p.size : Int))) ∧
      ∀ statement ∈ q.statements,
        (statement.relocated p.size (first.count (.scalar '\n'))).instr.operand.toInt =
          if statement.link.isSome then statement.instr.operand.toInt + p.size
          else statement.instr.operand.toInt := by
  obtain ⟨front, readFirst, wholeFirst, soundFirst, settledFirst, resolvableFirst, rfl⟩ :=
    Assembler.exists_reading_of_parse acceptedFirst
  obtain ⟨r, readSecond, wholeSecond, soundSecond, settledSecond, resolvableSecond, rfl⟩ :=
    Assembler.exists_reading_of_parse acceptedSecond
  simp only [Reader.names_program] at disjoint
  simp only [Reader.size_program] at small
  -- the lines of the first text are read as before, and leave the standard equates
  have continues := Reader.continues_readAll rfl rfl
    (fun raw member => composableFirst.of_part (Lines.infix_of_mem_ofText member))
    (fun raw member => composableFirst.undefining (Lines.infix_of_mem_ofText member))
    noEquates readFirst
  rw [Lines.length_lines wholeFirst ended] at continues
  -- the lines of the second text are read behind them as they are alone
  obtain ⟨s, readBoth, moved⟩ := continues.moved.readAll
    (fun raw member => composableSecond.of_part (Lines.infix_of_mem_ofText member))
    (fun raw member => composableSecond.undefining (Lines.infix_of_mem_ofText member))
    readSecond disjoint
  have settled := moved.state.settled soundFirst settledFirst settledSecond
  have resolvable := moved.state.resolvable resolvableFirst resolvableSecond
  have linked := Reader.program_wellLinked soundSecond settledSecond resolvableSecond (by omega)
  rw [Reader.size_program]
  refine ⟨s.program, ?_, moved.statements_program disjoint resolvableFirst resolvableSecond,
    moved.labels_program, fun statement member => linked.toInt_relocated ?_ _ member⟩
  · refine (Assembler.parse_eq_ok_iff {} _ _).mpr ⟨s, ?_, ?_⟩
    · rw [Lines.ofText_append wholeFirst ended]
      exact (Reader.readAll_append_of_readAll readFirst _).trans readBoth
    · rw [Lines.ofText_append wholeFirst ended]
      exact (Reader.finish_eq_ok_iff _ _ _).mpr
        ⟨wholeSecond, moved.closedMoved, settled, resolvable, rfl⟩
  · rw [Reader.size_program]
    exact small

/-! ### Two texts with jumps -/

/-- A text with a comment and a label that both contain the name of a directive. -/
def jumpsSource : Text :=
  "start: push 'A' ; not an .equ\njnz a.equ\ndec\na.equ: jmp start\n"

/-- The program of the text. -/
def jumpsProgram : Program where
  statements := #[
    { line := 1, ip := 0, words := ["push", "65"], instr := .ofOpcode .push 65 },
    { line := 2, ip := 1, words := ["jnz", "a.equ"], instr := .ofOpcode .jnz 3,
      link := some (Text.ofString "a.equ") },
    { line := 3, ip := 2, words := ["dec"], instr := .ofOpcode .dec 0 },
    { line := 4, ip := 3, words := ["jmp", "start"], instr := .ofOpcode .jmp 0,
      link := some (Text.ofString "start") }]
  labels := [("start", 0), ("a.equ", 3)]

/-- A text with an equate, which is used with and without brackets. -/
def equateSource : Text :=
  ".equ TWO 2\nloop: push TWO\njmp [TWO]\njmp loop"

/-- The program of the text. -/
def equateProgram : Program where
  statements := #[
    { line := 2, ip := 0, words := ["push", "2"], instr := .ofOpcode .push 2 },
    { line := 3, ip := 1, words := ["jmp", "[TWO]"], instr := .ofOpcode .jmp 2 },
    { line := 4, ip := 2, words := ["jmp", "loop"], instr := .ofOpcode .jmp 0,
      link := some (Text.ofString "loop") }]
  labels := [("loop", 0)]

attribute [local instance] Assembly.Expression.interpreter

/-- The jump to a number stays where it is, and the jump to a label is moved. -/
theorem assemble_append_jumps :
    assemble jumpsSource = .ok jumpsProgram ∧ assemble equateSource = .ok equateProgram ∧
      ∃ r, assemble (jumpsSource ++ equateSource) = .ok r ∧
        r.statements.toList.map (fun s => (s.ip, s.line, s.instr.operand)) =
          [(0, 1, 65), (1, 2, 3), (2, 3, 0), (3, 4, 0), (4, 6, 2), (5, 7, 2), (6, 8, 4)] ∧
        r.labels = [(("start" : Text), (0 : Int)), ("a.equ", 3), ("loop", 4)] := by
  have acceptedFirst : assemble jumpsSource = .ok jumpsProgram := by decide +kernel
  have acceptedSecond : assemble equateSource = .ok equateProgram := by decide +kernel
  obtain ⟨r, accepted, statements, labels, -⟩ := assemble_append jumpsSource equateSource
    jumpsProgram equateProgram (by decide) acceptedFirst acceptedSecond (by decide +kernel)
    (by decide +kernel) (by decide +kernel) (by decide) (by decide)
  refine ⟨acceptedFirst, acceptedSecond, r, accepted, ?_, ?_⟩
  · rw [statements]
    decide +kernel
  · rw [labels]
    decide

end StackMachine
