import StackMachine.Assembly.Expression.Eval
import StackMachine.Proofs.Assembly.Concatenation
import StackMachine.Proofs.Assembly.Derivations

/-!
# The scope of equates

A macro call sets its parameters as equates, the lines of its body set the number of the current
line and perhaps equates of their own, and they may call other macros. All of this ends with the
call: behind a line the equates are those before it, with the number of the line, and with one
equate more if the line itself defines one. It makes no difference whether the line, or any line
that is expanded on the way, is refused.

The macros that are being expanded could be kept in a table that is shared by all lines, too: a call
enters its macro there and takes it out again. By `Assembly.tracks_iff` nothing else would come of
that, and the table would be left as it was.

## Main definitions

* `Assembly.SetsEquate`: a line that defines an equate which is not set yet.
* `Assembly.Tracks`: the outcome of a line, or of the lines of a macro body, where the macros that
  are being expanded are kept in a table.

## Main results

* `Assembly.equates_assembleLine`: what a line can do to the equates.
* `Assembly.tracks_iff`: the table of macros that are being expanded is left as it was.
* `Assembly.assembleLine_scoped`: what a line leaves behind, accepted or refused.
-/

namespace StackMachine

namespace Assembly

open State

/-! ### Lines that define an equate -/

section

variable [Interpreter]

/-- Behind its labels a line reads `.equ`, a name that is not set, and a value. -/
structure SetsEquate (lineNo : Nat) (line : Text) (s : State) (name value : Text) : Prop where
  words : ∃ replaced,
    replaceExpressions (s.atLine lineNo).equates (replaceCharacters line) = .ok replaced ∧
      (withoutLabels replaced.length replaced).fields = [Text.ofString ".equ", name, value]
  unbound : (s.atLine lineNo).equates.find? name = none

omit [Interpreter] in
theorem equates_defineLabelsWithin (lineNo fuel : Nat) (s : State) (line : Text) :
    (defineLabelsWithin lineNo fuel s line).1.equates = s.equates := by
  induction fuel generalizing s line with
  | zero => rfl
  | succ fuel ih =>
    unfold defineLabelsWithin
    split
    · rfl
    · split_ifs
      · rfl
      · rfl
      · exact ih _ _

section Line

variable {expand : MacroCall → State → Outcome Unit} {lineNo : Nat} {line : Text} {s t : State}
  {c : MacroCall} {name value : Text}

/-- A definition of an equate is no call, and it is carried out unless a label is refused. -/
theorem SetsEquate.exists_ends (sets : SetsEquate lineNo line s name value) :
    ∃ o, Ends lineNo line s o ∧
      (o.2 = .ok () → o.1.equates = (s.atLine lineNo).equates.set name value) := by
  obtain ⟨⟨replaced, substituted, fields⟩, unbound⟩ := sets
  rcases labelled : (s.atLine lineNo).defineLabels lineNo replaced with ⟨t, p | behind⟩
  · exact ⟨(t, .error p), fun _ => by simp only [assembleLineWith, substituted, labelled],
      by rintro ⟨⟩⟩
  · obtain ⟨rfl, same⟩ := defineLabelsWithin_eq_ok labelled
    refine ⟨t.defineEquate (withoutLabels replaced.length replaced).fields, fun expand => ?_,
      fun _ => ?_⟩
    · simp only [assembleLineWith, substituted, labelled]
      rw [assembleWords, if_pos (by rw [fields]; rfl)]
    · simp [defineEquate, fields, same, Dictionary.contains, unbound]

/-- If calls keep the equates, then a line sets its number and perhaps one equate. -/
theorem equates_assembleLineWith (keeps : ∀ c t, (expand c t).1.equates = t.equates) (lineNo : Nat)
    (line : Text) (s : State) :
    (assembleLineWith expand lineNo line s).1.equates = (s.atLine lineNo).equates ∨
      ∃ name value, SetsEquate lineNo line s name value ∧
        (assembleLineWith expand lineNo line s).1.equates =
          (s.atLine lineNo).equates.set name value := by
  unfold assembleLineWith
  dsimp only
  split
  · exact .inl rfl
  · rename_i replaced substituted
    have labels := equates_defineLabelsWithin lineNo replaced.length (s.atLine lineNo) replaced
    split
    · rename_i t problem labelled
      rw [defineLabels] at labelled
      rw [labelled] at labels
      exact .inl labels
    · rename_i t behind labelled
      obtain ⟨rfl, same⟩ := defineLabelsWithin_eq_ok labelled
      unfold assembleWords
      split
      · rename_i directive
        unfold defineEquate
        split
        · rename_i word name value fields
          split
          · exact .inl same
          · rename_i free
            have first : word = Text.ofString ".equ" := by simpa [fields] using directive
            have unbound : (s.atLine lineNo).equates.find? name = none := by
              simpa [Dictionary.contains, same] using free
            exact .inr ⟨name, value, ⟨⟨replaced, substituted, first ▸ fields⟩, unbound⟩,
              by rw [same]⟩
        · exact .inl same
      · dsimp only
        split
        · exact .inl same
        · split
          · exact .inl ((keeps _ t).trans same)
          · exact .inl ((equates_emit t lineNo _).trans same)

/-- A line that comes to a call has not changed the equates yet, but for its number. -/
theorem Calls.equates (calls : Calls lineNo line s c t) :
    t.equates = (s.atLine lineNo).equates := by
  let stay : MacroCall → State → Outcome Unit := fun _ t => (t, .ok ())
  have keeps (c t) : (stay c t).1.equates = t.equates := rfl
  have reached := equates_assembleLineWith keeps lineNo line s
  rw [calls] at reached
  rcases reached with same | ⟨name, value, sets, -⟩
  · exact same
  · obtain ⟨o, ends, -⟩ := sets.exists_ends
    exact absurd calls ends.not_calls

end Line

omit [Interpreter] in
/-- A call ends with the equates that it began with, however its body is assembled. -/
theorem equates_expandCall (active : List Text) (assemble : LineAssembler) (c : MacroCall)
    (s : State) : (expandCall active assemble c s).1.equates = s.equates := by
  unfold expandCall
  split_ifs
  · rfl
  · rfl
  · rfl

/-- A line sets its number and perhaps one equate, however deep calls are expanded. -/
theorem equates_assembleLine (depth : Nat) (active : List Text) (lineNo : Nat) (line : Text)
    (s : State) :
    (assembleLine depth active lineNo line s).1.equates = (s.atLine lineNo).equates ∨
      ∃ name value, SetsEquate lineNo line s name value ∧
        (assembleLine depth active lineNo line s).1.equates =
          (s.atLine lineNo).equates.set name value := by
  obtain ⟨inside, level, -⟩ := exists_assembleLine_eq depth active
  rw [level]
  exact equates_assembleLineWith (fun c t => equates_expandCall active _ c t) lineNo line s

/-- Equates keep their values behind a line, but for the number of the line. -/
theorem find?_equates_assembleLine {depth lineNo : Nat} {active : List Text} {line : Text}
    {s : State} {name value : Text} (other : name ≠ lineName)
    (found : s.equates.find? name = some value) :
    (assembleLine depth active lineNo line s).1.equates.find? name = some value := by
  have entered : (s.atLine lineNo).equates.find? name = some value :=
    (Dictionary.find?_set_of_ne _ _ (Ne.symm other)).trans found
  rcases equates_assembleLine depth active lineNo line s with same | ⟨new, _, sets, defined⟩
  · rw [same, entered]
  · have different : new ≠ name := by
      rintro rfl
      cases sets.unbound.symm.trans entered
    rw [defined, Dictionary.find?_set_of_ne _ _ different, entered]

/-! ### Macros that are being expanded -/

/-- The outcome of a task, and the macros `left` that are held to be expanded behind it, where those
before it are `active`. A call that is expanded enters its macro, its body goes on with what each
line leaves, and in the end, whatever has come of the body, the macro is taken out. -/
inductive Tracks : List Text → Task → State → List Text → Outcome Unit → Prop
  /-- The line makes no call. -/
  | ends {active lineNo line s o} (ends : Ends lineNo line s o) :
      Tracks active (.line lineNo line) s active o
  /-- A call has too many arguments or too few. -/
  | mismatch {active lineNo line s c t} (calls : Calls lineNo line s c t) (arity : ¬ c.Matches) :
      Tracks active (.line lineNo line) s active (t.refuse c.name .macroSyntax)
  /-- A call is made of a macro that is being expanded. -/
  | reenters {active lineNo line s c t} (calls : Calls lineNo line s c t) (arity : c.Matches)
      (busy : c.name ∈ active) :
      Tracks active (.line lineNo line) s active (t.refuse c.name .macroRecursion)
  /-- A call is expanded. -/
  | expands {active lineNo line s c t left u result} (calls : Calls lineNo line s c t)
      (arity : c.Matches) (free : c.name ∉ active)
      (body : Tracks (c.name :: active) (.body c c.definition.lineNo c.definition.body)
        (c.enter t) left (u, result)) :
      Tracks active (.line lineNo line) s (left.erase c.name)
        ({ u with equates := t.equates }, result)
  /-- A body comes to its end. -/
  | done {active c lineNo s} : Tracks active (.body c lineNo []) s active (s, .ok ())
  /-- A line of a body is assembled, and then the others are. -/
  | next {active c lineNo line rest s left t last o}
      (first : Tracks active (.line lineNo (localise c.mark line)) s left (t, .ok ()))
      (others : Tracks left (.body c (lineNo + 1) rest) t last o) :
      Tracks active (.body c lineNo (line :: rest)) s last o
  /-- A line of a body is refused. -/
  | stops {active c lineNo line rest s left t p}
      (first : Tracks active (.line lineNo (localise c.mark line)) s left (t, .error p)) :
      Tracks active (.body c lineNo (line :: rest)) s left
        (t, .error (.expansion c.name lineNo (localise c.mark line) p))

/-- Every task leaves the macros that are held to be expanded as they were, so that the outcome is
the one without a table of them. -/
theorem Tracks.restores {active left : List Text} {task : Task} {s : State} {o : Outcome Unit}
    (h : Tracks active task s left o) : left = active ∧ Assembles active task s o := by
  induction h with
  | ends ends => exact ⟨rfl, .ends ends⟩
  | mismatch calls arity => exact ⟨rfl, .mismatch calls arity⟩
  | reenters calls arity busy => exact ⟨rfl, .reenters calls arity busy⟩
  | expands calls arity free _ ih =>
    obtain ⟨rfl, body⟩ := ih
    exact ⟨List.erase_cons_head .., .expands calls arity free body⟩
  | done => exact ⟨rfl, .done⟩
  | next _ _ ihFirst ihOthers =>
    obtain ⟨rfl, first⟩ := ihFirst
    obtain ⟨rfl, others⟩ := ihOthers
    exact ⟨rfl, .next first others⟩
  | stops _ ih =>
    obtain ⟨rfl, first⟩ := ih
    exact ⟨rfl, .stops first⟩

theorem Assembles.tracks {active : List Text} {task : Task} {s : State} {o : Outcome Unit}
    (h : Assembles active task s o) : Tracks active task s active o := by
  induction h with
  | ends ends => exact .ends ends
  | mismatch calls arity => exact .mismatch calls arity
  | reenters calls arity busy => exact .reenters calls arity busy
  | expands calls arity free _ ih =>
    have tracked := Tracks.expands calls arity free ih
    rwa [List.erase_cons_head] at tracked
  | done => exact .done
  | next _ _ ihFirst ihOthers => exact .next ihFirst ihOthers
  | stops _ ih => exact .stops ih

/-- To keep the macros that are being expanded in a table comes to the same as to hand them down,
and the table is left as it was. -/
theorem tracks_iff {active left : List Text} {task : Task} {s : State} {o : Outcome Unit} :
    Tracks active task s left o ↔ left = active ∧ Assembles active task s o := by
  constructor
  · exact Tracks.restores
  · rintro ⟨rfl, h⟩
    exact h.tracks

/-! ### What a line leaves behind -/

/-- Whether a line is accepted or refused, it leaves the equates with its number and with one equate
more at most, which it defines itself behind its labels and which was not set; a line that defines
one and is accepted has set it. No equate but the number of the line has another value than before.
A line that calls a macro sets none at all. The macros stay, and so does a table of the macros that
are being expanded. -/
theorem assembleLine_scoped (depth : Nat) (active : List Text) (lineNo : Nat) (line : Text)
    (s : State) :
    ((assembleLine depth active lineNo line s).1.equates = (s.atLine lineNo).equates ∨
      ∃ name value, SetsEquate lineNo line s name value ∧
        (assembleLine depth active lineNo line s).1.equates =
          (s.atLine lineNo).equates.set name value) ∧
    (∀ name value, SetsEquate lineNo line s name value →
      (assembleLine depth active lineNo line s).2 = .ok () →
      (assembleLine depth active lineNo line s).1.equates =
        (s.atLine lineNo).equates.set name value) ∧
    (∀ name value, name ≠ lineName → s.equates.find? name = some value →
      (assembleLine depth active lineNo line s).1.equates.find? name = some value) ∧
    (∀ c t, Calls lineNo line s c t →
      (assembleLine depth active lineNo line s).1.equates = (s.atLine lineNo).equates) ∧
    (assembleLine depth active lineNo line s).1.macros = s.macros ∧
    (∀ left o, Tracks active (.line lineNo line) s left o → left = active) ∧
    (s.idle active ≤ depth →
      Tracks active (.line lineNo line) s active (assembleLine depth active lineNo line s)) := by
  refine ⟨equates_assembleLine depth active lineNo line s, fun name value sets accepted => ?_,
    fun name value => find?_equates_assembleLine, fun c t calls => ?_,
    macros_assembleLine depth active lineNo line s, fun left o tracks => tracks.restores.1,
    fun enough => (assembles_line depth active lineNo line s enough).tracks⟩
  · obtain ⟨o, ends, defines⟩ := sets.exists_ends
    rw [assembleLine_of_ends ends] at accepted ⊢
    exact defines accepted
  · obtain ⟨inside, level, -⟩ := exists_assembleLine_eq depth active
    rw [level, calls, equates_expandCall, calls.equates]

end

/-- Tables with a macro that sets an equate and calls another macro. -/
def nestedTables : State where
  macros := Dictionary.ofList [
    (Text.ofString "INNER", ⟨2, [Text.ofString "Y"], [Text.ofString "PUSH Y", Text.ofString "Y"]⟩),
    (Text.ofString "OUTER", ⟨6, [Text.ofString "X"],
      [Text.ofString ".equ TWICE 8", Text.ofString "INNER TWICE"]⟩)]

attribute [local instance] Assembly.Expression.interpreter

/-- The second macro fails on its second line; by then the tables have both parameters, the equate
and the numbers of the lines of both bodies. -/
theorem assembleLine_scoped_failing :
    (assembleLine 2 [] 9 "HERE: OUTER 4" nestedTables).2 =
      .error (.expansion "OUTER" 7 "INNER TWICE"
        (.expansion "INNER" 3 "Y" (.plain "8" .opcodeInvalid))) ∧
    (assembleLine 2 [] 9 "HERE: OUTER 4" nestedTables).1.equates =
      nestedTables.equates.set lineName (Numeral.decimal 9) ∧
    Tracks [] (.line 9 "HERE: OUTER 4") nestedTables []
      (assembleLine 2 [] 9 "HERE: OUTER 4" nestedTables) := by
  have failed : (assembleLine 2 [] 9 "HERE: OUTER 4" nestedTables).2 =
      .error (.expansion "OUTER" 7 "INNER TWICE"
        (.expansion "INNER" 3 "Y" (.plain "8" .opcodeInvalid))) := by
    decide +kernel
  obtain ⟨-, -, -, called, -, -, tracked⟩ :=
    assembleLine_scoped 2 [] 9 "HERE: OUTER 4" nestedTables
  rcases line_cases 9 "HERE: OUTER 4" nestedTables with ⟨o, ends, own⟩ | ⟨c, t, calls, -⟩
  · rw [assembleLine_of_ends ends] at failed
    obtain ⟨token, cause, plain, -⟩ := own _ failed
    cases plain
  · exact ⟨failed, called c t calls, tracked (by decide +kernel)⟩

end Assembly

end StackMachine
