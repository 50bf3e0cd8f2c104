import StackMachine.Proofs.Assembly.Changes
import StackMachine.Proofs.Assembly.Substitution

/-!
# Assembling behind other lines

Lines that use no macros, no expressions and no mention of the current line are assembled behind
other lines as they are alone, only further on: their statements get later addresses and lines,
their labels later addresses, and nothing else changes. All that they need is that their labels
are new and that the equates before them are the standard ones.

## Main definitions

* `Statement.moved`: a statement at a later place.
* `Assembly.State.Moved`: tables that go on from other tables as they do alone.
* `Assembly.State.Follows`: outcomes that do.

## Main results

* `Assembly.follows_assembleLineWith`: a line is assembled further on as it is alone.
* `Assembly.Reader.Moved.readAll`: so are the lines of a source text.
-/

namespace StackMachine

/-- A statement at a place that is `base` statements and `lines` lines further on. -/
def Statement.moved (base lines : Nat) (statement : Statement) : Statement :=
  { statement with ip := statement.ip + base, line := statement.line + lines }

namespace Assembly

namespace State

/-- The tables `t` hold those of `front` and behind them what `s` holds alone, further on by the
statements of `front` and by `lines` lines. There are no macros, and the equates are the same but
for the one of the current line, which no other mentions. -/
structure Moved (front : State) (lines : Nat) (s t : State) : Prop where
  statements :
    t.statements = front.statements ++ s.statements.map (Statement.moved front.address lines)
  labels : t.labels = front.labels ++ s.labels.map fun label => (label.1, label.2 + front.address)
  macros : s.macros = {}
  macrosMoved : t.macros = {}
  equates : SameElsewhere s.equates t.equates
  unnamed : ∀ name value, name ≠ lineName → s.equates.find? name = some value →
    ¬ lineName <:+: value

/-- No label has a name that is a label of `front`. -/
def Apart (front s : State) : Prop :=
  ∀ name ∈ s.labels.map Prod.fst, name ∉ front.labels.map Prod.fst

/-- If the first outcome is a success with labels apart from those of `front`, then the second is
the same success further on. -/
def Follows (front : State) (lines : Nat) {α : Type} (o o' : Outcome α) : Prop :=
  ∀ s a, o = (s, .ok a) → front.Apart s → ∃ t, o' = (t, .ok a) ∧ front.Moved lines s t

variable {front s t u : State} {lines : Nat}

theorem Follows.refuse {α : Type} {o' : Outcome α} (token : Text) (cause : Cause) :
    front.Follows lines (s.refuse token cause) o' := by
  rintro _ _ ⟨⟩

theorem Follows.ok {α : Type} (moved : front.Moved lines s t) (a : α) :
    front.Follows lines (s, .ok a) (t, .ok a) := by
  rintro _ _ ⟨⟩ -
  exact ⟨t, rfl, moved⟩

/-! ### Labels are never lost -/

theorem Change.labels (change : Change s t) : s.labels <+: t.labels := by
  cases change with
  | setEquates | setMacros | assemble => exact List.prefix_rfl
  | define => exact List.prefix_append _ _

theorem Reaches.labels (reaches : Reaches s t) : s.labels <+: t.labels := by
  induction reaches with
  | refl => exact List.prefix_rfl
  | tail _ change ih => exact ih.trans change.labels

/-- Labels are apart if those are that they become. -/
theorem Apart.of_reaches (apart : front.Apart t) (reaches : Reaches s t) : front.Apart s :=
  fun name member => apart name ((reaches.labels.map Prod.fst).subset member)

/-! ### Changes further on -/

namespace Moved

theorem address (moved : front.Moved lines s t) : t.address = s.address + front.address := by
  simp [State.address, moved.statements, Nat.add_comm]

theorem statement (moved : front.Moved lines s t) (lineNo : Nat) (words : List Text) (op : Opcode)
    (operand : Option Operand) :
    t.statement (lineNo + lines) words op operand =
      (s.statement lineNo words op operand).moved front.address lines := by
  rcases operand with _ | value | name <;>
    simp [State.statement, Statement.moved, moved.address]

theorem append (moved : front.Moved lines s t) (statement : Statement) :
    front.Moved lines (s.append statement)
      (t.append (statement.moved front.address lines)) where
  statements := by
    rw [State.append, State.append, moved.statements, Array.map_push, Array.append_push]
  labels := moved.labels
  macros := moved.macros
  macrosMoved := moved.macrosMoved
  equates := moved.equates
  unnamed := moved.unnamed

theorem addLabel (moved : front.Moved lines s t) (lineNo : Nat) (name : Text) :
    front.Moved lines (s.addLabel lineNo name) (t.addLabel (lineNo + lines) name) where
  statements := moved.statements
  labels := by simp [State.addLabel, moved.labels, moved.address]
  macros := moved.macros
  macrosMoved := moved.macrosMoved
  equates := moved.equates
  unnamed := moved.unnamed

theorem atLine (moved : front.Moved lines s t) (m n : Nat) :
    front.Moved lines (s.atLine m) (t.atLine n) where
  statements := moved.statements
  labels := moved.labels
  macros := moved.macros
  macrosMoved := moved.macrosMoved
  equates := moved.equates.atLine _ _
  unnamed := by
    intro name value other found
    rw [State.atLine, Dictionary.find?_set_of_ne _ _ (Ne.symm other)] at found
    exact moved.unnamed name value other found

theorem setEquate (moved : front.Moved lines s t) (name : Text) {value : Text}
    (unnamed : ¬ lineName <:+: value) :
    front.Moved lines { s with equates := s.equates.set name value }
      { t with equates := t.equates.set name value } where
  statements := moved.statements
  labels := moved.labels
  macros := moved.macros
  macrosMoved := moved.macrosMoved
  equates := moved.equates.set name value
  unnamed := by
    intro other found ne h
    rcases Dictionary.eq_or_find?_of_find?_set h with ⟨-, rfl⟩ | ⟨-, old⟩
    · exact unnamed
    · exact moved.unnamed other found ne old

/-- A name that `front` does not have is a label further on if it is one alone. -/
theorem hasLabel (moved : front.Moved lines s t) {name : Text}
    (new : name ∉ front.labels.map Prod.fst) : t.hasLabel name = s.hasLabel name := by
  have keys : t.labels.map Prod.fst = front.labels.map Prod.fst ++ s.labels.map Prod.fst := by
    simp [moved.labels, Function.comp_def]
  rw [Bool.eq_iff_iff, hasLabel_iff, hasLabel_iff, keys, List.mem_append]
  exact or_iff_right new

/-- No equate brings a mention of the current line into words without one. -/
theorem unnamed_replaceEquates (moved : front.Moved lines s t) {words : List Text}
    (unnamed : ∀ w ∈ words, ¬ lineName <:+: w) :
    ∀ w ∈ replaceEquates s.equates words, ¬ lineName <:+: w := by
  intro w member
  obtain ⟨word, inside, rfl⟩ := List.mem_map.mp member
  cases found : s.equates.find? word with
  | none => exact unnamed word inside
  | some value =>
    exact moved.unnamed word value (SameElsewhere.ne_lineName (unnamed word inside)) found

end Moved

/-! ### Lines further on -/

theorem follows_emit (moved : front.Moved lines s t) (lineNo : Nat) {words : List Text}
    (unnamed : ∀ w ∈ words, ¬ lineName <:+: w) :
    front.Follows lines (s.emit lineNo words) (t.emit (lineNo + lines) words) := by
  unfold emit
  split
  · exact .ok moved ()
  · rename_i name operands
    split
    · exact .refuse _ _
    · split_ifs
      · split
        · exact .refuse _ _
        · rename_i word
          rw [← moved.equates.operandOf (unnamed word (by simp))]
          split
          · exact .refuse _ _
          · rw [moved.statement]
            exact .ok (moved.append _) ()
        · exact .refuse _ _
      · split
        · rw [moved.statement]
          exact .ok (moved.append _) ()
        · exact .refuse _ _

theorem follows_defineLabelsWithin (moved : front.Moved lines s t) (lineNo fuel : Nat)
    (line : Text) :
    front.Follows lines (defineLabelsWithin lineNo fuel s line)
      (defineLabelsWithin (lineNo + lines) fuel t line) := by
  induction fuel generalizing s t line with
  | zero => exact .ok moved line
  | succ fuel ih =>
    unfold defineLabelsWithin
    split
    · exact .ok moved line
    · rename_i name rest _
      by_cases invalid : (!isIdentifier name) = true
      · rw [if_pos invalid]
        exact .refuse _ _
      by_cases old : s.hasLabel name = true
      · rw [if_neg invalid, if_pos old]
        exact .refuse _ _
      rw [if_neg invalid, if_neg old, if_neg invalid]
      intro u a done apart
      -- the name is a label in the end, and so it is none of `front`
      have reached := reaches_defineLabelsWithin lineNo fuel (s.addLabel lineNo name) rest
      rw [done] at reached
      have new := apart.of_reaches reached name (by simp [State.addLabel])
      rw [moved.hasLabel new, if_neg old]
      exact ih (moved.addLabel lineNo name) rest u a done apart

theorem follows_defineEquate (moved : front.Moved lines s t) {words : List Text}
    (unnamed : ∀ w ∈ words, ¬ lineName <:+: w) :
    front.Follows lines (s.defineEquate words) (t.defineEquate words) := by
  unfold defineEquate
  split
  · rename_i directive name value
    have known : t.equates.contains name = s.equates.contains name := by
      rw [Dictionary.contains, Dictionary.contains, moved.equates.find? (unnamed name (by simp))]
    rw [known]
    split_ifs
    · exact .refuse _ _
    · exact .ok (moved.setEquate name (unnamed value (by simp))) ()
  · exact .refuse _ _

theorem follows_assembleWords (moved : front.Moved lines s t)
    (expand expand' : MacroCall → State → Outcome Unit) (lineNo : Nat) {words : List Text}
    (unnamed : ∀ w ∈ words, ¬ lineName <:+: w) :
    front.Follows lines (assembleWords expand lineNo words s)
      (assembleWords expand' (lineNo + lines) words t) := by
  have replaced := moved.unnamed_replaceEquates unnamed
  unfold assembleWords
  rw [← moved.equates.replaceEquates unnamed, moved.macros, moved.macrosMoved]
  split_ifs
  · exact follows_defineEquate moved unnamed
  · generalize replaceEquates s.equates words = replacement at replaced ⊢
    cases replacement with
    | nil => exact .ok moved ()
    | cons name arguments => exact follows_emit moved lineNo replaced

end State

open State

variable {front s t : State} {lines : Nat}

/-- A line without expressions and mention of the current line is assembled further on as it is
alone. -/
theorem follows_assembleLineWith [Interpreter] (moved : front.Moved lines s t)
    {expand : MacroCall → State → Outcome Unit} (changes : ∀ c s, Reaches s (expand c s).1)
    (expand' : MacroCall → State → Outcome Unit) (lineNo : Nat) {line : Text}
    (unnumbered : Unnumbered line) :
    front.Follows lines (assembleLineWith expand lineNo line s)
      (assembleLineWith expand' (lineNo + lines) line t) := by
  simp only [assembleLineWith, unnumbered.replaceExpressions]
  have labelled := follows_defineLabelsWithin (moved.atLine lineNo (lineNo + lines)) lineNo
    (replaceCharacters line).length (replaceCharacters line)
  rw [← defineLabels, ← defineLabels] at labelled
  rcases before : (s.atLine lineNo).defineLabels lineNo (replaceCharacters line) with
    ⟨u, problem | behind⟩
  · rintro _ _ ⟨⟩
  · intro v a done apart
    dsimp only at done
    have part : behind <:+: replaceCharacters line := infix_of_defineLabelsWithin before
    have reached := reaches_assembleWords changes lineNo behind.fields u
    rw [done] at reached
    obtain ⟨w, further, movedLabels⟩ := labelled u behind before (apart.of_reaches reached)
    rw [further]
    refine follows_assembleWords movedLabels expand expand' lineNo ?_ v a done apart
    intro word member
    exact ((unnumbered.replaceCharacters.of_part part).of_part
      (Text.infix_of_mem_fields member)).unnamed

/-! ### Reading further on -/

namespace Reader

/-- The reader `q` is behind the lines of `front` where `r` is alone; no macro is being defined. -/
structure Moved (front : State) (lines : Nat) (r q : Reader) : Prop where
  state : front.Moved lines r.state q.state
  closed : r.openMacro = none
  closedMoved : q.openMacro = none
  lineNo : q.lineNo = r.lineNo + lines

variable {r q r' : Reader}

variable [Interpreter]

theorem assembleCurrent_eq_iff :
    r.assembleCurrent = (r', none) ↔
      ∃ s, assembleLine r.state.macros.entries.length [] r.lineNo r.line r.state = (s, .ok ()) ∧
        r' = { r with state := s } := by
  unfold assembleCurrent
  rcases assembleLine r.state.macros.entries.length [] r.lineNo r.line r.state with
    ⟨s, problem | ⟨⟩⟩
  · simp
  · simp [eq_comm]

/-- A line that defines no macro and is accepted once is assembled wherever it stands. -/
theorem assembled_of_read {raw : Text} (undefining : definesMacro raw = false)
    (closed : r.openMacro = none) (read : r.read raw = (r', none)) (q : Reader)
    (closedQ : q.openMacro = none) :
    q.read raw = (q.advance (stripComment raw)).assembleCurrent := by
  rcases read_cases undefining with ⟨token, cause, refused⟩ | assembled
  · rw [refused r closed] at read
    cases read
  · exact assembled q closedQ

/-- Without macros a line is assembled at depth zero. -/
theorem assembleCurrent_eq_iff_of_empty (empty : r.state.macros = {}) :
    r.assembleCurrent = (r', none) ↔
      ∃ s, assembleLine 0 [] r.lineNo r.line r.state = (s, .ok ()) ∧
        r' = { r with state := s } := by
  have depth : r.state.macros.entries.length = 0 := by rw [empty]; rfl
  rw [assembleCurrent_eq_iff, depth]

/-- A line that defines no macro, has no expressions and does not mention the current line is read
further on as it is alone. -/
theorem Moved.read (moved : r.Moved front lines q) {raw : Text} (unnumbered : Unnumbered raw)
    (undefining : definesMacro raw = false) (read : r.read raw = (r', none))
    (apart : front.Apart r'.state) :
    ∃ q', q.read raw = (q', none) ∧ r'.Moved front lines q' := by
  have assembled := assembled_of_read undefining moved.closed read
  have emptyR : (r.advance (stripComment raw)).state.macros = {} := moved.state.macros
  have emptyQ : (q.advance (stripComment raw)).state.macros = {} := moved.state.macrosMoved
  rw [assembled r moved.closed, assembleCurrent_eq_iff_of_empty emptyR] at read
  rw [assembled q moved.closedMoved]
  simp only [assembleCurrent_eq_iff_of_empty emptyQ]
  obtain ⟨s, line, rfl⟩ := read
  have number : q.lineNo + 1 = r.lineNo + 1 + lines := by
    rw [moved.lineNo]
    omega
  have refuses (c : MacroCall) : OnlyChanges fun _ _ s => s.refuse c.name .macroRecursion :=
    fun _ _ _ => .refl
  have follows := follows_assembleLineWith moved.state
    (fun c s => reaches_expandCall (refuses c) [] c s)
    (fun c s => expandCall [] (fun _ _ s => s.refuse c.name .macroRecursion) c s)
    (r.lineNo + 1) unnumbered.stripComment
  obtain ⟨t, further, after⟩ := follows s () line apart
  rw [← number] at further
  exact ⟨_, ⟨t, further, rfl⟩, after, moved.closed, moved.closedMoved, number⟩

/-- So are lines that do neither, one after another. -/
theorem Moved.readAll (moved : r.Moved front lines q) {raws : List Text}
    (unnumbered : ∀ raw ∈ raws, Unnumbered raw)
    (undefining : ∀ raw ∈ raws, definesMacro raw = false)
    (read : r.readAll raws = (r', none)) (apart : front.Apart r'.state) :
    ∃ q', q.readAll raws = (q', none) ∧ r'.Moved front lines q' := by
  induction raws generalizing r q with
  | nil =>
    cases read
    exact ⟨q, rfl, moved⟩
  | cons raw rest ih =>
    rcases first : r.read raw with ⟨next, _ | problem⟩
    · rw [readAll_cons_of_read first] at read
      have later := next.reaches_readAll rest
      rw [read] at later
      obtain ⟨other, further, after⟩ := moved.read (unnumbered raw List.mem_cons_self)
        (undefining raw List.mem_cons_self) first (apart.of_reaches later)
      rw [readAll_cons_of_read further]
      exact ih after (fun k member => unnumbered k (List.mem_cons_of_mem raw member))
        (fun k member => undefining k (List.mem_cons_of_mem raw member)) read
    · rw [Reader.readAll, first] at read
      cases read

end Reader

end Assembly

end StackMachine
