import Mathlib.Data.List.Dedup
import StackMachine.Proofs.Assembly.Expansion

/-!
# Lines without a bound on expansions

Assembling a line recurses through the bodies of the macros that it calls, and the depth of this
recursion is bounded by a number. This module says what a line does without such a number: by
rules, which stand for the calls themselves. Every line has exactly one outcome by the rules, and
it is the one that is computed, as soon as the bound is at least the number of macros that are
not being expanded yet. So the bound never decides about an outcome.

## Main definitions

* `Assembly.Ends`, `Assembly.Calls`: what a line does by itself, and the call that it makes.
* `Assembly.Assembles`: the outcome of a line, or of the lines of a macro body, by rules.
* `Assembly.State.idle`: the number of macros that are not being expanded.

## Main results

* `Assembly.line_cases`: all that a line can do.
* `Assembly.assembles_iff`: the rules and the bounded recursion have the same outcomes.
-/

namespace StackMachine

namespace Assembly

/-- The word that is to blame in the end, behind all calls that led to it. -/
def Problem.token : Problem → Text
  | plain token _ => token
  | expansion _ _ _ inner => inner.token

/-- The macros whose calls led to a problem, the outermost first. -/
def Problem.callers : Problem → List Text
  | plain _ _ => []
  | expansion name _ _ inner => name :: inner.callers

/-! ### Problems of a line itself -/

/-- An outcome that is no failure inside of a macro body, and none for a macro that is called while
it is being expanded. -/
def OwnProblem {α : Type} (o : Outcome α) : Prop :=
  ∀ p, o.2 = .error p → ∃ token cause, p = .plain token cause ∧ cause ≠ .macroRecursion

namespace OwnProblem

variable {α : Type} {s : State}

theorem ok (a : α) : OwnProblem (s, .ok a) := by
  rintro p ⟨⟩

theorem refuse {cause : Cause} (other : cause ≠ .macroRecursion) (token : Text) :
    OwnProblem (s.refuse token cause : Outcome α) := by
  rintro p ⟨⟩
  exact ⟨token, cause, rfl, other⟩

end OwnProblem

theorem valueOf_ne_macroRecursion (word : Text) : valueOf word ≠ .error .macroRecursion := by
  unfold valueOf
  dsimp only
  split
  · simp
  · split <;> simp

theorem plainOperand_ne_macroRecursion (word : Text) :
    plainOperand word ≠ .error .macroRecursion := by
  have number := valueOf_ne_macroRecursion word
  unfold plainOperand
  split
  · unfold fitted
    split_ifs <;> simp [Except.map]
  · rename_i cause failed
    rw [failed] at number
    split_ifs
    · simp
    · simpa using number

theorem operandOf_ne_macroRecursion (equates : Dictionary Text) (word : Text) :
    operandOf equates word ≠ .error .macroRecursion := by
  unfold operandOf
  split_ifs
  · split
    · simp
    · exact plainOperand_ne_macroRecursion _
  · exact plainOperand_ne_macroRecursion _

theorem ownProblem_emit (s : State) (lineNo : Nat) (words : List Text) :
    OwnProblem (s.emit lineNo words) := by
  unfold State.emit
  repeat' split
  all_goals first
    | exact .ok ()
    | exact .refuse (by decide) _
    | skip
  rename_i word _ cause failed
  refine .refuse ?_ word
  rintro rfl
  exact operandOf_ne_macroRecursion s.equates word failed

theorem ownProblem_defineEquate (s : State) (words : List Text) :
    OwnProblem (s.defineEquate words) := by
  unfold State.defineEquate
  split
  · split_ifs
    · exact .refuse (by decide) _
    · exact .ok ()
  · exact .refuse (by decide) _

theorem ownProblem_defineLabelsWithin (lineNo fuel : Nat) (s : State) (line : Text) :
    OwnProblem (State.defineLabelsWithin lineNo fuel s line) := by
  induction fuel generalizing s line with
  | zero => exact .ok line
  | succ fuel ih =>
    unfold State.defineLabelsWithin
    split
    · exact .ok line
    · split_ifs
      · exact .refuse (by decide) _
      · exact .refuse (by decide) _
      · exact ih _ _

variable [Interpreter]

theorem ownProblem_replaceExpressions {equates : Dictionary Text} {line : Text} {p : Problem}
    (h : replaceExpressions equates line = .error p) :
    ∃ token cause, p = .plain token cause ∧ cause ≠ .macroRecursion := by
  unfold replaceExpressions at h
  dsimp only at h
  split at h
  · cases h
    exact ⟨_, _, rfl, by simp⟩
  · cases h

/-! ### What a line does by itself -/

/-- A line ends with an outcome of its own: it makes no call, so that the outcome is the same
whatever is done about calls. -/
def Ends (lineNo : Nat) (line : Text) (s : State) (o : Outcome Unit) : Prop :=
  ∀ expand, assembleLineWith expand lineNo line s = o

/-- A line comes down to a call, made with the tables `t`. -/
def Calls (lineNo : Nat) (line : Text) (s : State) (c : MacroCall) (t : State) : Prop :=
  ∀ expand, assembleLineWith expand lineNo line s = expand c t

/-- All that a line can do: it ends by itself, or it calls a macro that is defined. -/
theorem line_cases (lineNo : Nat) (line : Text) (s : State) :
    (∃ o, Ends lineNo line s o ∧ OwnProblem o) ∨
      ∃ c t, Calls lineNo line s c t ∧ c.lineNo = lineNo ∧
        s.macros.find? c.name = some c.definition := by
  cases replaced : replaceExpressions (s.atLine lineNo).equates (replaceCharacters line) with
  | error p =>
    refine .inl ⟨(s.atLine lineNo, .error p),
      fun _ => by simp only [assembleLineWith, replaced], ?_⟩
    rintro q ⟨⟩
    exact ownProblem_replaceExpressions replaced
  | ok text =>
    have own := ownProblem_defineLabelsWithin lineNo text.length (s.atLine lineNo) text
    have kept := State.macros_defineLabelsWithin lineNo text.length (s.atLine lineNo) text
    rw [← State.defineLabels] at own kept
    rcases labelled : (s.atLine lineNo).defineLabels lineNo text with ⟨t, p | behind⟩
    · rw [labelled] at own
      refine .inl ⟨(t, .error p), fun _ => by simp only [assembleLineWith, replaced, labelled], ?_⟩
      rintro q ⟨⟩
      exact own p rfl
    · have words (expand) : assembleLineWith expand lineNo line s =
          assembleWords expand lineNo behind.fields t := by
        simp only [assembleLineWith, replaced, labelled]
      rw [labelled] at kept
      by_cases equate : behind.fields.head? = some (Text.ofString ".equ")
      · refine .inl ⟨t.defineEquate behind.fields, fun expand => ?_, ownProblem_defineEquate _ _⟩
        rw [words, assembleWords, if_pos equate]
      · cases replacement : replaceEquates t.equates behind.fields with
        | nil =>
          refine .inl ⟨(t, .ok ()), fun expand => ?_, .ok ()⟩
          simp only [words, assembleWords, if_neg equate, replacement]
        | cons name arguments =>
          cases found : t.macros.find? name with
          | none =>
            refine .inl ⟨t.emit lineNo (name :: arguments), fun expand => ?_,
              ownProblem_emit _ _ _⟩
            simp only [words, assembleWords, if_neg equate, replacement, found]
          | some definition =>
            refine .inr ⟨⟨lineNo, name, definition, arguments⟩, t, fun expand => ?_, rfl, ?_⟩
            · simp only [words, assembleWords, if_neg equate, replacement, found]
            · rw [← found, kept]
              rfl

section Own

variable {lineNo : Nat} {line : Text} {s t u : State} {c d : MacroCall} {o o' : Outcome Unit}

theorem macros_assembleLineWith_ok (lineNo : Nat) (line : Text) (s : State) :
    (assembleLineWith (fun _ t => (t, .ok ())) lineNo line s).1.macros = s.macros :=
  macros_assembleLineWith (fun _ _ => rfl) lineNo line s

theorem Ends.macros (ends : Ends lineNo line s o) : o.1.macros = s.macros := by
  rw [← macros_assembleLineWith_ok lineNo line s, ends]

theorem Calls.macros (calls : Calls lineNo line s c t) : t.macros = s.macros := by
  rw [← macros_assembleLineWith_ok lineNo line s, calls]

/-- A line that calls a macro does not end by itself. -/
theorem Ends.not_calls (ends : Ends lineNo line s o) : ¬ Calls lineNo line s c t := by
  intro calls
  have fails := (calls fun _ t => t.refuse [] .macroSyntax).symm.trans (ends _)
  have works := (calls fun _ t => (t, .ok ())).symm.trans (ends _)
  cases works.trans fails.symm

/-- A line makes one call at most. -/
theorem Calls.unique (calls : Calls lineNo line s c t) (other : Calls lineNo line s d u) :
    c = d ∧ t = u := by
  classical
  constructor
  · by_contra different
    have told := (calls fun e t =>
      if e = c then (t, .ok ()) else t.refuse [] .macroSyntax).symm.trans (other _)
    simp only [if_pos, if_neg (Ne.symm different)] at told
    cases told
  · have same := (calls fun _ t => (t, .ok ())).symm.trans (other _)
    cases same
    rfl

/-- The macro that a line calls is defined. -/
theorem Calls.found (calls : Calls lineNo line s c t) :
    s.macros.find? c.name = some c.definition ∧ c.lineNo = lineNo := by
  rcases line_cases lineNo line s with ⟨o, ends, -⟩ | ⟨d, u, other, onLine, found⟩
  · exact absurd calls ends.not_calls
  · obtain ⟨rfl, -⟩ := calls.unique other
    exact ⟨found, onLine⟩

theorem Ends.ownProblem (ends : Ends lineNo line s o) : OwnProblem o := by
  rcases line_cases lineNo line s with ⟨o', others, own⟩ | ⟨d, u, calls, -⟩
  · rwa [(ends fun _ t => (t, .ok ())).symm.trans (others _)]
  · exact absurd calls ends.not_calls

end Own

/-! ### Rules -/

/-- A call has as many arguments as the macro has parameters. -/
def MacroCall.Matches (c : MacroCall) : Prop :=
  c.arguments.length = c.definition.params.length

instance (c : MacroCall) : Decidable c.Matches :=
  inferInstanceAs (Decidable (_ = _))

/-- The tables that the body of a macro begins with: its parameters are equates. -/
def MacroCall.enter (c : MacroCall) (s : State) : State :=
  { s with equates := s.equates.setAll (c.definition.params.zip c.arguments) }

/-- What is assembled: a line, or the lines of the body of a called macro. -/
inductive Task where
  | line (lineNo : Nat) (line : Text)
  | body (c : MacroCall) (lineNo : Nat) (lines : List Text)

/-- The outcome of a task while the macros `active` are being expanded. There is no rule for a call
of one of them but the one that refuses it, and none of the rules has a bound. -/
inductive Assembles : List Text → Task → State → Outcome Unit → Prop
  /-- The line makes no call. -/
  | ends {active lineNo line s o} (ends : Ends lineNo line s o) :
      Assembles active (.line lineNo line) s o
  /-- A call has too many arguments or too few. -/
  | mismatch {active lineNo line s c t} (calls : Calls lineNo line s c t) (arity : ¬ c.Matches) :
      Assembles active (.line lineNo line) s (t.refuse c.name .macroSyntax)
  /-- A call is made of a macro that is being expanded. -/
  | reenters {active lineNo line s c t} (calls : Calls lineNo line s c t) (arity : c.Matches)
      (busy : c.name ∈ active) :
      Assembles active (.line lineNo line) s (t.refuse c.name .macroRecursion)
  /-- A call is expanded, and then the equates are what they were before. -/
  | expands {active lineNo line s c t u result} (calls : Calls lineNo line s c t)
      (arity : c.Matches) (free : c.name ∉ active)
      (body : Assembles (c.name :: active) (.body c c.definition.lineNo c.definition.body)
        (c.enter t) (u, result)) :
      Assembles active (.line lineNo line) s ({ u with equates := t.equates }, result)
  /-- A body comes to its end. -/
  | done {active c lineNo s} : Assembles active (.body c lineNo []) s (s, .ok ())
  /-- A line of a body is assembled, and then the others are. -/
  | next {active c lineNo line rest s t o}
      (first : Assembles active (.line lineNo (localise c.mark line)) s (t, .ok ()))
      (others : Assembles active (.body c (lineNo + 1) rest) t o) :
      Assembles active (.body c lineNo (line :: rest)) s o
  /-- A line of a body is refused. -/
  | stops {active c lineNo line rest s t p}
      (first : Assembles active (.line lineNo (localise c.mark line)) s (t, .error p)) :
      Assembles active (.body c lineNo (line :: rest)) s
        (t, .error (.expansion c.name lineNo (localise c.mark line) p))

/-- A task carried out with a bound on the depth of expansions. -/
def Task.perform (depth : Nat) (active : List Text) : Task → State → Outcome Unit
  | .line lineNo text => assembleLine depth active lineNo text
  | .body c lineNo lines => assembleBody (assembleLine depth active) c lineNo lines

/-- No task changes the macros. -/
theorem Assembles.macros {active : List Text} {task : Task} {s : State} {o : Outcome Unit}
    (h : Assembles active task s o) : o.1.macros = s.macros := by
  induction h with
  | ends ends => exact ends.macros
  | mismatch calls => exact calls.macros
  | reenters calls => exact calls.macros
  | expands calls _ _ _ ih => exact ih.trans calls.macros
  | done => rfl
  | next _ _ ihFirst ihOthers => exact ihOthers.trans ihFirst
  | stops _ ih => exact ih

/-! ### Macros that are not being expanded -/

namespace State

/-- The names of the macros. -/
def macroNames (s : State) : List Text :=
  (s.macros.entries.map Prod.fst).dedup

/-- The number of macros that are not being expanded. -/
def idle (s : State) (active : List Text) : Nat :=
  (s.macroNames.filter (!active.contains ·)).length

variable {s t : State} {active : List Text} {name : Text} {definition : MacroDef}

omit [Interpreter] in
theorem mem_macroNames (found : s.macros.find? name = some definition) : name ∈ s.macroNames :=
  List.mem_dedup.mpr (List.mem_map_of_mem (Dictionary.mem_of_findIn? found))

omit [Interpreter] in
theorem idle_congr (same : t.macros = s.macros) (active : List Text) :
    t.idle active = s.idle active := by
  rw [idle, idle, macroNames, macroNames, same]

omit [Interpreter] in
/-- To expand one more macro leaves fewer that are not being expanded. -/
theorem idle_cons_lt (found : s.macros.find? name = some definition) (free : name ∉ active) :
    s.idle (name :: active) < s.idle active := by
  have fewer : s.macroNames.filter (!(name :: active).contains ·) =
      (s.macroNames.filter (!active.contains ·)).filter (· ≠ name) := by
    rw [List.filter_filter]
    exact List.filter_congr fun other _ => by simp
  have counted : name ∈ s.macroNames.filter (!active.contains ·) :=
    List.mem_filter.mpr ⟨mem_macroNames found, by simpa using free⟩
  rw [idle, idle, fewer]
  exact List.length_filter_lt_length_iff_exists.mpr ⟨name, counted, by simp⟩

omit [Interpreter] in
theorem idle_le (s : State) (active : List Text) : s.idle active ≤ s.macros.entries.length :=
  calc s.idle active ≤ s.macroNames.length := List.length_filter_le _ _
    _ ≤ (s.macros.entries.map Prod.fst).length := (List.dedup_sublist _).length_le
    _ = s.macros.entries.length := List.length_map _

end State

/-! ### The bounded recursion follows the rules -/

/-- One level of the bounded recursion. -/
theorem exists_assembleLine_eq (depth : Nat) (active : List Text) :
    ∃ inside : Text → LineAssembler,
      assembleLine depth active =
        assembleLineWith (fun c t => expandCall active (inside c.name) c t) ∧
      ∀ d, depth = d + 1 → ∀ name, inside name = assembleLine d (name :: active) := by
  cases depth with
  | zero => exact ⟨fun name _ _ s => s.refuse name .macroRecursion, rfl, by rintro d ⟨⟩⟩
  | succ depth =>
    refine ⟨fun name => assembleLine depth (name :: active), rfl, ?_⟩
    rintro d ⟨⟩ name
    rfl

section Bounded

variable {depth lineNo : Nat} {active : List Text} {line : Text} {s t : State} {c : MacroCall}

theorem assembleLine_of_ends {o : Outcome Unit} (ends : Ends lineNo line s o) :
    assembleLine depth active lineNo line s = o := by
  obtain ⟨inside, level, -⟩ := exists_assembleLine_eq depth active
  rw [level, ends]

theorem assembleLine_of_mismatch (calls : Calls lineNo line s c t) (arity : ¬ c.Matches) :
    assembleLine depth active lineNo line s = t.refuse c.name .macroSyntax := by
  obtain ⟨inside, level, -⟩ := exists_assembleLine_eq depth active
  rw [level, calls]
  exact if_pos arity

theorem assembleLine_of_reenters (calls : Calls lineNo line s c t) (arity : c.Matches)
    (busy : c.name ∈ active) :
    assembleLine depth active lineNo line s = t.refuse c.name .macroRecursion := by
  obtain ⟨inside, level, -⟩ := exists_assembleLine_eq depth active
  rw [level, calls]
  exact (if_neg (not_not.mpr arity)).trans (if_pos (by simpa using busy))

theorem assembleLine_of_expands (calls : Calls lineNo line s c t) (arity : c.Matches)
    (free : c.name ∉ active) :
    assembleLine (depth + 1) active lineNo line s =
      ({ ((Task.body c c.definition.lineNo c.definition.body).perform depth (c.name :: active)
            (c.enter t)).1 with equates := t.equates },
        ((Task.body c c.definition.lineNo c.definition.body).perform depth (c.name :: active)
          (c.enter t)).2) := by
  obtain ⟨inside, level, deeper⟩ := exists_assembleLine_eq (depth + 1) active
  rw [level, calls, deeper depth rfl]
  exact (if_neg (not_not.mpr arity)).trans (if_neg (by simpa using free))

end Bounded

/-- With a bound that is large enough for the lines of a body, the body follows the rules. -/
theorem assembles_body {depth : Nat} {active : List Text}
    (lines : ∀ (lineNo : Nat) (line : Text) (s : State), s.idle active ≤ depth →
      Assembles active (.line lineNo line) s (assembleLine depth active lineNo line s))
    (c : MacroCall) (lineNo : Nat) (body : List Text) (s : State)
    (enough : s.idle active ≤ depth) :
    Assembles active (.body c lineNo body) s
      ((Task.body c lineNo body).perform depth active s) := by
  induction body generalizing lineNo s with
  | nil => exact .done
  | cons line rest ih =>
    have first := lines lineNo (localise c.mark line) s enough
    have kept := State.idle_congr first.macros active
    simp only [Task.perform, assembleBody]
    generalize assembleLine depth active lineNo (localise c.mark line) s = o at first kept ⊢
    obtain ⟨t, p | _⟩ := o
    · exact .stops first
    · exact .next first (ih (lineNo + 1) t (kept ▸ enough))

/-- With a bound that is large enough, lines follow the rules. -/
theorem assembles_line (depth : Nat) (active : List Text) (lineNo : Nat) (line : Text) (s : State)
    (enough : s.idle active ≤ depth) :
    Assembles active (.line lineNo line) s (assembleLine depth active lineNo line s) := by
  induction depth using Nat.strongRecOn generalizing active lineNo line s with
  | ind depth ih =>
    rcases line_cases lineNo line s with ⟨o, ends, -⟩ | ⟨c, t, calls, -, found⟩
    · rw [assembleLine_of_ends ends]
      exact .ends ends
    by_cases arity : c.Matches
    · by_cases busy : c.name ∈ active
      · rw [assembleLine_of_reenters calls arity busy]
        exact .reenters calls arity busy
      · have fewer := State.idle_cons_lt found busy
        have entered : (c.enter t).idle (c.name :: active) = s.idle (c.name :: active) :=
          State.idle_congr calls.macros _
        -- the macro itself is one that is left, so that the bound is not reached
        obtain ⟨below, rfl⟩ : ∃ d, depth = d + 1 := Nat.exists_eq_succ_of_ne_zero (by omega)
        rw [assembleLine_of_expands calls arity busy]
        exact .expands calls arity busy
          (assembles_body (ih below (by omega) _) c _ _ _ (by omega))
    · rw [assembleLine_of_mismatch calls arity]
      exact .mismatch calls arity

theorem assembles_perform {depth : Nat} {active : List Text} (task : Task) {s : State}
    (enough : s.idle active ≤ depth) : Assembles active task s (task.perform depth active s) := by
  cases task with
  | line lineNo line => exact assembles_line depth active lineNo line s enough
  | body c lineNo body => exact assembles_body (assembles_line depth active) c lineNo body s enough

/-- The rules leave no choice: they give the outcome that is computed with any bound that is large
enough. -/
theorem Assembles.perform_eq {depth : Nat} {active : List Text} {task : Task} {s : State}
    {o : Outcome Unit} (h : Assembles active task s o) (enough : s.idle active ≤ depth) :
    task.perform depth active s = o := by
  induction h generalizing depth with
  | ends ends => exact assembleLine_of_ends ends
  | mismatch calls arity => exact assembleLine_of_mismatch calls arity
  | reenters calls arity busy => exact assembleLine_of_reenters calls arity busy
  | @expands active lineNo line s c t u result calls arity free body ih =>
    have fewer := State.idle_cons_lt calls.found.1 free
    have entered : (c.enter t).idle (c.name :: active) = s.idle (c.name :: active) :=
      State.idle_congr calls.macros _
    obtain ⟨depth, rfl⟩ : ∃ d, depth = d + 1 := Nat.exists_eq_succ_of_ne_zero (by omega)
    rw [Task.perform, assembleLine_of_expands calls arity free, ih (by omega)]
  | done => rfl
  | @next active c lineNo line rest s t o first others ihFirst ihOthers =>
    have line := ihFirst enough
    have kept := State.idle_congr first.macros active
    have body := ihOthers (kept ▸ enough)
    simp only [Task.perform] at line body
    simp only [Task.perform, assembleBody, line, body]
  | stops first ih =>
    have line := ih enough
    simp only [Task.perform] at line
    simp only [Task.perform, assembleBody, line]

/-- The rules and the bounded recursion have the same outcomes, as soon as the bound is at least
the number of macros that are not being expanded. -/
theorem assembles_iff {depth : Nat} {active : List Text} {task : Task} {s : State}
    (enough : s.idle active ≤ depth) (o : Outcome Unit) :
    Assembles active task s o ↔ task.perform depth active s = o := by
  constructor
  · exact fun h => h.perform_eq enough
  · rintro rfl
    exact assembles_perform task enough

end Assembly

end StackMachine
