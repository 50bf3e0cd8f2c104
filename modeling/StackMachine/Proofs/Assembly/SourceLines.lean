import StackMachine.Proofs.Assembly.Locations
import StackMachine.Proofs.Assembly.WellLinked

/-!
# Lines of statements

Every statement of an accepted program has the number of a line of its source text. A line that
is assembled gives its number to the statements that it adds itself; a macro call gives the
statements of the body the numbers of the body lines, and these are lines of the source text too.

## Main definitions

* `Assembly.State.OnLines`: the statements of tables stand on given lines.
* `Assembly.Task.IsOnLines`: the lines of a task are given lines.

## Main results

* `Assembly.Assembles.onLines`: a task keeps statements on lines.
* `Assembly.Reader.onLines_readAll`: so do the lines of a source text.
* `Assembler.exists_line_of_parse`: every statement of a program stands on a source line.
-/

namespace StackMachine

namespace Assembly

/-! ### What a line adds -/

namespace State

variable {lineNo : Nat} {s t u : State}

/-- The statements of `t` are those of `s`, and others with the line number `lineNo`. -/
def AddsOn (lineNo : Nat) (s t : State) : Prop :=
  ∀ statement ∈ t.statements, statement ∈ s.statements ∨ statement.line = lineNo

theorem addsOn_of_statements_eq (lineNo : Nat) (same : t.statements = s.statements) :
    AddsOn lineNo s t := by
  intro statement member
  exact .inl (same ▸ member)

theorem addsOn_append (words : List Text) (op : Opcode) (operand : Option Operand) :
    AddsOn lineNo s (s.append (s.statement lineNo words op operand)) := by
  intro statement member
  rcases Array.mem_push.mp member with old | rfl
  · exact .inl old
  · exact .inr (by rcases operand with _ | _ | _ <;> rfl)

theorem addsOn_emit (lineNo : Nat) (words : List Text) (s : State) :
    AddsOn lineNo s (s.emit lineNo words).1 := by
  unfold emit
  repeat' split
  all_goals first
    | exact addsOn_append _ _ _
    | exact addsOn_of_statements_eq lineNo rfl

@[simp] theorem statements_defineLabelsWithin (lineNo fuel : Nat) (s : State) (line : Text) :
    (defineLabelsWithin lineNo fuel s line).1.statements = s.statements := by
  induction fuel generalizing s line with
  | zero => rfl
  | succ fuel ih =>
    unfold defineLabelsWithin
    split
    · rfl
    · split_ifs
      · rfl
      · rfl
      · exact ih _ _

@[simp] theorem statements_defineEquate (s : State) (words : List Text) :
    (s.defineEquate words).1.statements = s.statements := by
  unfold defineEquate
  split
  · split_ifs <;> rfl
  · rfl

end State

open State

theorem addsOn_assembleWords (lineNo : Nat) (words : List Text) (s : State) :
    AddsOn lineNo s (assembleWords (fun _ t => (t, .ok ())) lineNo words s).1 := by
  unfold assembleWords
  split_ifs
  · exact addsOn_of_statements_eq lineNo (statements_defineEquate s words)
  · dsimp only
    split
    · exact addsOn_of_statements_eq lineNo rfl
    · split
      · exact addsOn_of_statements_eq lineNo rfl
      · exact addsOn_emit lineNo _ s

/-- Apart from its call, a line adds statements with its own number only. -/
theorem addsOn_assembleLineWith [Interpreter] (lineNo : Nat) (line : Text) (s : State) :
    AddsOn lineNo s (assembleLineWith (fun _ t => (t, .ok ())) lineNo line s).1 := by
  unfold assembleLineWith
  dsimp only
  split
  · exact addsOn_of_statements_eq lineNo rfl
  · rename_i replaced _
    have kept := statements_defineLabelsWithin lineNo replaced.length (s.atLine lineNo) replaced
    rw [← defineLabels] at kept
    generalize (s.atLine lineNo).defineLabels lineNo replaced = o at kept ⊢
    obtain ⟨t, p | behind⟩ := o
    · exact addsOn_of_statements_eq lineNo kept
    · intro statement member
      rcases addsOn_assembleWords lineNo behind.fields t statement member with old | own
      · exact .inl (kept ▸ old)
      · exact .inr own

section Own

variable {lineNo : Nat} {line : Text} {s t : State} {c : MacroCall} {o : Outcome Unit}

theorem Ends.addsOn [Interpreter] (ends : Ends lineNo line s o) : AddsOn lineNo s o.1 := by
  rw [← ends fun _ t => (t, .ok ())]
  exact addsOn_assembleLineWith lineNo line s

theorem Calls.addsOn [Interpreter] (calls : Calls lineNo line s c t) : AddsOn lineNo s t := by
  have own := addsOn_assembleLineWith lineNo line s
  rwa [calls] at own

end Own

/-! ### Tasks -/

/-- Every statement stands on one of some lines. -/
def State.OnLines (lines : List Text) (s : State) : Prop :=
  ∀ statement ∈ s.statements,
    ∃ (n : Nat) (raw : Text), statement.line = n ∧ line? lines n = some raw

/-- The line of a task, or every line of its body, is one of some lines. -/
def Task.IsOnLines (lines : List Text) : Task → Prop
  | .line lineNo _ => ∃ raw, line? lines lineNo = some raw
  | .body _ lineNo texts => ∀ k < texts.length, ∃ raw, line? lines (lineNo + k) = some raw

variable {lines : List Text} {lineNo : Nat} {s t : State}

theorem State.OnLines.addsOn (on : s.OnLines lines) (adds : AddsOn lineNo s t) {raw : Text}
    (own : line? lines lineNo = some raw) : t.OnLines lines := by
  intro statement member
  rcases adds statement member with old | number
  · exact on statement old
  · exact ⟨lineNo, raw, number, own⟩

theorem State.OnLines.append (on : s.OnLines lines) (more : List Text) :
    s.OnLines (lines ++ more) := by
  intro statement member
  obtain ⟨n, raw, number, found⟩ := on statement member
  exact ⟨n, raw, number, line?_append more found⟩

theorem Task.IsOnLines.tail {c : MacroCall} {line : Text} {rest : List Text}
    (inside : (Task.body c lineNo (line :: rest)).IsOnLines lines) :
    (Task.body c (lineNo + 1) rest).IsOnLines lines := by
  intro k small
  rw [Nat.add_right_comm, Nat.add_assoc]
  exact inside (k + 1) (by simpa using small)

/-- The body of a macro is on the lines on which its definition is written. -/
theorem Written.isOnLines {name : Text} {c : MacroCall} (written : Written lines name c.definition) :
    (Task.body c c.definition.lineNo c.definition.body).IsOnLines lines := by
  intro k small
  obtain ⟨raw, found, -⟩ := written.body k _ (List.getElem?_eq_getElem small)
  exact ⟨raw, found⟩

/-- A task on some lines keeps statements on them, if they hold the macros as well. -/
theorem Assembles.onLines [Interpreter] {active : List Text} {task : Task} {o : Outcome Unit}
    (h : Assembles active task s o) (inside : task.IsOnLines lines)
    (written : ∀ name definition, s.macros.find? name = some definition →
      Written lines name definition)
    (on : s.OnLines lines) : o.1.OnLines lines := by
  induction h with
  | ends ends =>
    obtain ⟨raw, own⟩ := inside
    exact on.addsOn ends.addsOn own
  | mismatch calls =>
    obtain ⟨raw, own⟩ := inside
    exact on.addsOn calls.addsOn own
  | reenters calls =>
    obtain ⟨raw, own⟩ := inside
    exact on.addsOn calls.addsOn own
  | @expands active lineNo line s c t u result calls _ _ body ih =>
    obtain ⟨raw, own⟩ := inside
    have defined := written c.name c.definition calls.found.1
    have kept : (c.enter t).macros = s.macros := calls.macros
    -- the line of the call is left for the lines on which the body is written
    exact ih defined.isOnLines (kept ▸ written) (on.addsOn calls.addsOn own)
  | done => exact on
  | @next active c lineNo line rest s t o first _ ihFirst ihOthers =>
    have kept : t.macros = s.macros := first.macros
    have begun : t.OnLines lines := ihFirst (inside 0 (Nat.zero_lt_succ _)) written on
    exact ihOthers inside.tail (kept ▸ written) begun
  | stops _ ih => exact ih (inside 0 (Nat.zero_lt_succ _)) written on

/-! ### Source texts -/

namespace Reader

variable {r : Reader}

@[simp] theorem statements_beginMacro (r : Reader) (words : List Text) :
    (r.beginMacro words).1.state.statements = r.state.statements := by
  unfold beginMacro
  split
  · rfl
  · split_ifs <;> rfl
  · rfl

@[simp] theorem statements_endMacro (r : Reader) :
    r.endMacro.1.state.statements = r.state.statements := by
  unfold endMacro
  split <;> rfl

@[simp] theorem statements_extendMacro (r : Reader) (name line : Text) :
    (r.extendMacro name line).state.statements = r.state.statements := by
  unfold extendMacro
  split <;> rfl

variable [Interpreter]

theorem onLines_assembleCurrent (records : r.Records lines) (on : r.state.OnLines lines)
    {raw : Text} (current : line? lines r.lineNo = some raw) :
    r.assembleCurrent.1.state.OnLines lines := by
  have assembled := assembles_line _ [] r.lineNo r.line r.state (r.state.idle_le [])
  have kept := assembled.onLines ⟨raw, current⟩ records.written on
  unfold assembleCurrent
  generalize assembleLine _ [] r.lineNo r.line r.state = o at kept ⊢
  obtain ⟨t, p | _⟩ := o <;> exact kept

/-- Reading one more line keeps statements on lines. -/
theorem onLines_read (records : r.Records lines) (on : r.state.OnLines lines) (raw : Text) :
    (r.read raw).1.state.OnLines (lines ++ [raw]) := by
  have longer : (r.advance (stripComment raw)).state.OnLines (lines ++ [raw]) := on.append [raw]
  rw [read_eq]
  split_ifs
  · simpa only [State.OnLines, statements_beginMacro] using longer
  · simpa only [State.OnLines, statements_endMacro] using longer
  · split
    · simpa only [State.OnLines, statements_extendMacro] using longer
    · have advanced := records.advance raw
      have current : line? (lines ++ [raw]) (r.advance (stripComment raw)).lineNo = some raw := by
        rw [advanced.lineNo, List.length_append]
        exact line?_concat lines raw
      exact onLines_assembleCurrent advanced longer current

/-- Reading lines keeps statements on the lines that are read. -/
theorem onLines_readAll (records : r.Records lines) (awaits : r.Awaits lines)
    (on : r.state.OnLines lines) (raws : List Text) :
    (r.readAll raws).1.state.OnLines (lines ++ raws) := by
  induction raws generalizing r lines with
  | nil => rwa [List.append_nil]
  | cons raw rest ih =>
    have reports := reports_read records awaits raw
    have kept := onLines_read records on raw
    rw [readAll, ← List.singleton_append, ← List.append_assoc]
    generalize r.read raw = x at reports kept ⊢
    obtain ⟨next, _ | problem⟩ := x
    · exact ih reports.records (reports.awaits rfl) kept
    · exact kept.append rest

end Reader

end Assembly

open Assembly

/-- **Statements stand on source lines.** The line number of every statement of an accepted program
is the number of a line of its source text, counted from one. -/
theorem Assembler.exists_line_of_parse [Interpreter] {a : Assembler} {source : Text} {p : Program}
    (accepted : (a.parse source).2 = .ok p) {statement : Statement}
    (member : statement ∈ p.statements) :
    ∃ (n : Nat) (raw : Text), statement.line = n ∧
      line? (Lines.ofText source).lines n = some raw := by
  obtain ⟨r, read, -, -, -, -, rfl⟩ := exists_reading_of_parse accepted
  obtain ⟨draft, found, rfl⟩ := r.mem_program member
  have start : a.reader.Records [] := ⟨rfl, rfl, by rintro name definition ⟨⟩⟩
  have kept := Reader.onLines_readAll start (by rintro name ⟨⟩) (by simp [State.OnLines, reader])
    (Lines.ofText source).lines
  rw [read] at kept
  rw [State.resolved_line]
  exact kept draft found

end StackMachine
