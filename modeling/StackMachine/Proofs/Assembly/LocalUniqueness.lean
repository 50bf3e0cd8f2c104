import StackMachine.Proofs.Assembly.Linking
import StackMachine.Proofs.Assembly.LocalLabels

/-!
# Local labels are unique

Two expansions define the same local label only if they are of one macro and called from
one line. A line outside of macro bodies is assembled once, but a line of a macro body is
assembled in every expansion of its macro. This module shows that a line is not refused
for a label that is defined twice, as long as the calls with local labels that are
expanded on the way are all made at different places, and at places whose labels are not
taken.

## Main definitions

* `Assembly.localSites`: where the calls of macros with local labels are made.
* `Assembly.LocalMacros`: macros all of whose labels are local.
* `Assembly.Careful`: outcomes that are no failures for a label that is defined twice, with the
  labels they may add.
* `Assembly.CarefulLines`, `Assembly.CarefulCalls`: lines and calls with such outcomes.

## Main results

* `Assembly.careful_expandCall`: a call is expanded carefully if lines are assembled carefully.
* `Assembly.careful_assembleLine`: lines are assembled carefully, at whatever depth.
-/

namespace StackMachine

namespace Assembly

/-- The names of the labels. -/
abbrev State.names (s : State) : List Text :=
  s.labels.map Prod.fst

/-- Whether the body of the macro of a call mentions local labels. -/
def MacroCall.hasLocals (c : MacroCall) : Bool :=
  c.definition.body.any fun line => line.contains (.scalar '@')

/-- Where the calls of macros with local labels are made. -/
def localSites (calls : List MacroCall) : List CallSite :=
  (calls.filter MacroCall.hasLocals).map MacroCall.site

theorem localSites_cons (c : MacroCall) (calls : List MacroCall) :
    localSites (c :: calls) =
      if c.hasLocals then c.site :: localSites calls else localSites calls := by
  unfold localSites
  rw [List.filter_cons]
  split <;> rfl

theorem localSites_append (front back : List MacroCall) :
    localSites (front ++ back) = localSites front ++ localSites back := by
  simp [localSites]

/-! ### Macro bodies -/

section Bodies

variable [Interpreter]

/-- The local labels that the lines of a macro body define. -/
inductive BodyDefines : List Text → List Text → Prop
  | nil : BodyDefines [] []
  | cons {line : Text} {body new names : List Text} (first : DefinesLocals line new)
      (others : BodyDefines body names) : BodyDefines (line :: body) (new ++ names)

theorem DefinesLocals.isPlainName {line : Text} {names : List Text}
    (defines : DefinesLocals line names) : ∀ name ∈ names, isPlainName name = true := by
  induction defines with
  | none => simp
  | label gap plain _ ih => exact List.forall_mem_cons.mpr ⟨plain, ih⟩

theorem DefinesLocals.eq_nil {line : Text} {names : List Text}
    (defines : DefinesLocals line names) (absent : .scalar '@' ∉ line) : names = [] := by
  cases defines with
  | none => rfl
  | label => exact absurd List.mem_cons_self absent

namespace BodyDefines

variable {body names : List Text} (defines : BodyDefines body names)

include defines

theorem isPlainName : ∀ name ∈ names, isPlainName name = true := by
  induction defines with
  | nil => simp
  | cons first _ ih =>
    intro name member
    rcases List.mem_append.mp member with new | old
    · exact first.isPlainName name new
    · exact ih name old

theorem eq_nil (absent : ∀ line ∈ body, .scalar '@' ∉ line) : names = [] := by
  induction defines with
  | nil => rfl
  | cons first _ ih =>
    rw [List.forall_mem_cons] at absent
    rw [first.eq_nil absent.1, ih absent.2]
    rfl

/-- A body with one more line at its end. -/
theorem concat {line : Text} {new : List Text} (last : DefinesLocals line new) :
    BodyDefines (body ++ [line]) (names ++ new) := by
  induction defines with
  | nil => simpa using BodyDefines.cons last .nil
  | cons first _ ih =>
    rw [List.cons_append, List.append_assoc]
    exact .cons first ih

end BodyDefines

/-- Macros with plain names all of whose labels are local and distinct. -/
def LocalMacros (macros : Dictionary MacroDef) : Prop :=
  ∀ name definition, macros.find? name = some definition →
    isPlainName name = true ∧ ∃ names, names.Nodup ∧ BodyDefines definition.body names

end Bodies

/-! ### What expansions may do -/

/-- No label belongs to an expansion of a call that is made at one of some places. -/
def Apart (labels : List Text) (sites : List CallSite) : Prop :=
  ∀ label ∈ labels, ∀ site ∈ sites, ¬ site.Owns label

/-- An outcome that is not a failure for a label that is defined twice. After a success the tables
hold the labels `known`, `labels` and labels of the calls made at `sites` only. -/
structure Careful {α : Type} (known labels : List Text) (sites : List CallSite)
    (outcome : Outcome α) : Prop where
  success : ∀ a, outcome.2 = .ok a → ∀ label ∈ outcome.1.names,
    label ∈ known ∨ label ∈ labels ∨ ∃ site ∈ sites, site.Owns label
  failure : ∀ problem, outcome.2 = .error problem → problem.cause ≠ .labelDuplicate

namespace Careful

variable {α : Type} {s t : State} {known labels : List Text} {sites : List CallSite}

/-- A failure for any other cause is careful. -/
theorem refuse {token : Text} {cause : Cause} (other : cause ≠ .labelDuplicate) :
    Careful known labels sites (t.refuse token cause : Outcome α) where
  success := fun a result => by cases result
  failure := fun problem result => by
    cases result
    exact other

/-- A success that keeps the labels is careful. -/
theorem ok {a : α} (kept : t.labels = s.labels) : Careful s.names labels sites (t, .ok a) where
  success := fun _ _ label member => by
    rw [State.names, kept] at member
    exact .inl member
  failure := fun problem result => by cases result

/-- A failure is passed on, with or without the call that led to it. -/
theorem error {β : Type} {problem other : Problem}
    (first : Careful known labels sites ((t, .error problem) : Outcome α))
    (same : other.cause = problem.cause) {others : List Text} {places : List CallSite} :
    Careful known others places ((t, .error other) : Outcome β) where
  success := fun a result => by cases result
  failure := fun _ result => by
    cases result
    rw [same]
    exact first.failure problem rfl

/-- A careful outcome after a success adds the labels of both. -/
theorem trans {β : Type} {a : α} (first : Careful known labels sites (t, .ok a))
    {others : List Text} {places : List CallSite} {outcome : Outcome β}
    (second : Careful t.names others places outcome) :
    Careful known (labels ++ others) (sites ++ places) outcome where
  success := by
    intro b result label member
    simp only [List.mem_append]
    rcases second.success b result label member with old | new | ⟨site, found, owns⟩
    · rcases first.success a rfl label old with older | new | ⟨site, found, owns⟩
      · exact .inl older
      · exact .inr (.inl (.inl new))
      · exact .inr (.inr ⟨site, .inl found, owns⟩)
    · exact .inr (.inl (.inr new))
    · exact .inr (.inr ⟨site, .inr found, owns⟩)
  failure := second.failure

end Careful

/-- A way to assemble lines that is careful as long as the labels that they define are new and no
call is expanded whose labels are taken. -/
def CarefulLines [Interpreter] (assemble : LineAssembler) (log : CallLog) : Prop :=
  ∀ (lineNo : Nat) (line : Text) (s : State) (labels : List Text), LocalMacros s.macros →
    (∀ equates replaced, replaceExpressions equates (replaceCharacters line) = .ok replaced →
      TakesOff labels replaced) →
    labels.Nodup → (∀ label ∈ labels, label ∉ s.names) →
    Apart (s.names ++ labels) (localSites (log lineNo line s)) →
    (localSites (log lineNo line s)).Nodup →
    Careful s.names labels (localSites (log lineNo line s)) (assemble lineNo line s)

/-! ### Labels -/

theorem names_addLabel (s : State) (lineNo : Nat) (name : Text) :
    (s.addLabel lineNo name).names = s.names ++ [name] := by
  simp [State.names, State.addLabel]

/-- Taking new labels off a line does not fail for a label that is defined twice. -/
theorem careful_defineLabelsWithin (lineNo fuel : Nat) {labels : List Text} {line : Text}
    (takes : TakesOff labels line) (distinct : labels.Nodup) (s : State)
    (fresh : ∀ label ∈ labels, label ∉ s.names) :
    Careful s.names labels [] (State.defineLabelsWithin lineNo fuel s line) := by
  induction fuel generalizing labels line s with
  | zero => exact .ok rfl
  | succ fuel ih =>
    unfold State.defineLabelsWithin
    cases takes with
    | none unlabelled =>
      cases taken : takeLabel? line with
      | none => exact .ok rfl
      | some pair =>
        have invalid := unlabelled pair.1 pair.2 taken
        simp only [invalid, Bool.not_false, if_true]
        exact .refuse (by decide)
    | @label _ name rest labels taken identifier others =>
      have unused : s.hasLabel name = false := by
        rw [Bool.eq_false_iff, ne_eq, State.hasLabel_iff]
        exact fresh name List.mem_cons_self
      obtain ⟨new, distinctRest⟩ := List.nodup_cons.mp distinct
      have freshRest : ∀ label ∈ labels, label ∉ (s.addLabel lineNo name).names := by
        intro label member
        rw [names_addLabel, List.mem_append, List.mem_singleton, not_or]
        refine ⟨fresh label (List.mem_cons_of_mem name member), ?_⟩
        rintro rfl
        exact new member
      have later := ih others distinctRest (s.addLabel lineNo name) freshRest
      simp only [taken, identifier, unused, Bool.not_true, Bool.false_eq_true, if_false]
      refine ⟨fun behind result label member => ?_, later.failure⟩
      have known := later.success behind result label member
      rw [names_addLabel, List.mem_append, List.mem_singleton] at known
      rw [List.mem_cons]
      tauto

/-! ### Instructions and equates -/

theorem operandOf_ne_labelDuplicate (equates : Dictionary Text) (word : Text) :
    operandOf equates word ≠ .error .labelDuplicate := by
  have plain : ∀ word, plainOperand word ≠ .error .labelDuplicate := by
    intro word
    unfold plainOperand
    split
    · unfold fitted
      repeat' split
      all_goals simp [Except.map]
    · rename_i cause value
      split
      · simp
      · unfold valueOf at value
        dsimp only at value
        repeat' split at value
        all_goals cases value
        all_goals simp
  unfold operandOf
  repeat' split
  · simp
  · exact plain _
  · exact plain _

theorem careful_emit (s : State) (lineNo : Nat) (words : List Text) (sites : List CallSite) :
    Careful s.names [] sites (s.emit lineNo words) := by
  unfold State.emit
  split
  · exact .ok rfl
  · split
    · exact .refuse (by decide)
    · split
      · split
        · exact .refuse (by decide)
        · split
          · rename_i word _ cause failed
            refine .refuse ?_
            rintro rfl
            exact operandOf_ne_labelDuplicate s.equates word failed
          · exact .ok rfl
        · exact .refuse (by decide)
      · split
        · exact .ok rfl
        · exact .refuse (by decide)

theorem careful_defineEquate (s : State) (words : List Text) (sites : List CallSite) :
    Careful s.names [] sites (s.defineEquate words) := by
  unfold State.defineEquate
  split
  · split
    · exact .refuse (by decide)
    · exact .ok rfl
  · exact .refuse (by decide)

/-! ### Macro bodies -/

theorem MacroCall.owns_mark_append {c : MacroCall} {name : Text}
    (plainCall : isPlainName c.name = true) (plain : isPlainName name = true) :
    c.site.Owns (c.mark ++ name) :=
  ⟨plainCall, name, plain, rfl⟩

/-- A local label belongs to the call whose mark it has, and to no other. -/
theorem MacroCall.eq_site_of_owns {c : MacroCall} {name : Text} {site : CallSite}
    (plainCall : isPlainName c.name = true) (plain : isPlainName name = true)
    (owns : site.Owns (c.mark ++ name)) : site = c.site :=
  CallSite.eq_of_owns owns (owns_mark_append plainCall plain)

section Line

variable {c : MacroCall} (plain : isPlainName c.name = true) {s t : State} {new : List Text}
  {sites : List CallSite}
  (step : Careful s.names (new.map (c.mark ++ ·)) sites ((t, .ok ()) : Outcome Unit))

include plain step

/-- Local labels of a call that are not taken before a line are not taken behind it, unless the line
defines them or makes the call again. -/
theorem fresh_of_careful {names : List Text} (plainNames : ∀ name ∈ names, isPlainName name = true)
    (fresh : ∀ name ∈ names, c.mark ++ name ∉ s.names) (disjoint : ∀ name ∈ names, name ∉ new)
    (once : names ≠ [] → c.site ∉ sites) : ∀ name ∈ names, c.mark ++ name ∉ t.names := by
  intro name named taken
  rcases step.success () rfl _ taken with old | isNew | ⟨site, found, owns⟩
  · exact fresh name named old
  · obtain ⟨twin, isNew, same⟩ := List.mem_map.mp isNew
    rw [List.append_cancel_left same] at isNew
    exact disjoint name named isNew
  · rw [MacroCall.eq_site_of_owns plain (plainNames name named) owns] at found
    exact once (List.ne_nil_of_mem named) found

/-- The labels behind a line belong to no later call, if those before it do not and the places of
the later calls are all new. -/
theorem apart_of_careful (plainNew : ∀ name ∈ new, isPlainName name = true)
    {later : List CallSite} (apart : Apart s.names later) (once : new ≠ [] → c.site ∉ later)
    (between : ∀ site ∈ sites, ∀ other ∈ later, site ≠ other) : Apart t.names later := by
  intro label taken site found owns
  rcases step.success () rfl label taken with old | isNew | ⟨earlier, foundEarlier, ownsEarlier⟩
  · exact apart label old site found owns
  · obtain ⟨name, named, rfl⟩ := List.mem_map.mp isNew
    rw [MacroCall.eq_site_of_owns plain (plainNew name named) owns] at found
    exact once (List.ne_nil_of_mem named) found
  · exact between earlier foundEarlier site found (CallSite.eq_of_owns ownsEarlier owns)

end Line

section Expansion

variable [Interpreter] {assemble : LineAssembler} {log : CallLog}
  (careful : CarefulLines assemble log) {c : MacroCall} (plain : isPlainName c.name = true)

include careful plain

/-- A line of a macro body is assembled carefully, as long as its local labels are not taken. -/
theorem careful_bodyLine {line : Text} {names : List Text} (defines : DefinesLocals line names)
    (distinct : names.Nodup) (lineNo : Nat) (s : State) (macros : LocalMacros s.macros)
    (fresh : ∀ name ∈ names, c.mark ++ name ∉ s.names)
    (once : names ≠ [] → c.site ∉ localSites (log lineNo (localise c.mark line) s))
    (apart : Apart s.names (localSites (log lineNo (localise c.mark line) s)))
    (nodup : (localSites (log lineNo (localise c.mark line) s)).Nodup) :
    Careful s.names (names.map (c.mark ++ ·)) (localSites (log lineNo (localise c.mark line) s))
      (assemble lineNo (localise c.mark line) s) := by
  refine careful lineNo _ s _ macros ?_ ?_ ?_ ?_ nodup
  · exact fun equates replaced h => (defines.takesOff c.site plain h).1
  · exact distinct.map fun _ _ => List.append_cancel_left
  · exact List.forall_mem_map.mpr fresh
  · intro label member site found owns
    rcases List.mem_append.mp member with old | new
    · exact apart label old site found owns
    · obtain ⟨name, named, rfl⟩ := List.mem_map.mp new
      rw [MacroCall.eq_site_of_owns plain (defines.isPlainName name named) owns] at found
      exact once (List.ne_nil_of_mem named) found

/-- The lines of a macro body are assembled carefully, as long as no local label of the body is
taken and no call with local labels is expanded twice. -/
theorem careful_assembleBody (keeps : KeepsMacros assemble) {body names : List Text}
    (defines : BodyDefines body names) (distinct : names.Nodup) (lineNo : Nat) (s : State)
    (macros : LocalMacros s.macros) (fresh : ∀ name ∈ names, c.mark ++ name ∉ s.names)
    (once : names ≠ [] → c.site ∉ localSites (bodyCalls assemble log c lineNo body s))
    (apart : Apart s.names (localSites (bodyCalls assemble log c lineNo body s)))
    (nodup : (localSites (bodyCalls assemble log c lineNo body s)).Nodup) :
    Careful s.names (names.map (c.mark ++ ·)) (localSites (bodyCalls assemble log c lineNo body s))
      (assembleBody assemble c lineNo body s) := by
  induction defines generalizing lineNo s with
  | nil => exact .ok rfl
  | @cons line body new names first others ih =>
    obtain ⟨distinctNew, distinctNames, disjoint⟩ := List.nodup_append.mp distinct
    simp only [bodyCalls, localSites_append] at once apart nodup ⊢
    obtain ⟨nodupFirst, nodupRest, between⟩ := List.nodup_append.mp nodup
    have step := careful_bodyLine careful plain first distinctNew lineNo s macros
      (fun name isNew => fresh name (List.mem_append_left _ isNew))
      (fun nonempty found =>
        once (List.append_ne_nil_of_left_ne_nil nonempty _) (List.mem_append_left _ found))
      (fun label old site found => apart label old site (List.mem_append_left _ found)) nodupFirst
    have same := keeps lineNo (localise c.mark line) s
    rw [assembleBody]
    cases result : assemble lineNo (localise c.mark line) s with
    | mk t outcome =>
      rw [result] at step same
      simp only [result] at once apart nodupRest between ⊢
      cases outcome with
      | error problem =>
        have cause : (Problem.expansion c.name lineNo (localise c.mark line) problem).cause =
            problem.cause := rfl
        exact step.error cause
      | ok _ =>
        rw [List.map_append]
        -- the rest of the body meets the labels of the first line and of the calls made from it
        refine step.trans (ih distinctNames (lineNo + 1) t (same ▸ macros) ?_ ?_ ?_ nodupRest)
        · refine fresh_of_careful plain step others.isPlainName ?_ ?_ ?_
          · exact fun name old => fresh name (List.mem_append_right _ old)
          · exact fun name old isNew => disjoint name isNew name old rfl
          · exact fun nonempty found =>
              once (List.append_ne_nil_of_right_ne_nil _ nonempty) (List.mem_append_left _ found)
        · exact fun nonempty found =>
            once (List.append_ne_nil_of_right_ne_nil _ nonempty) (List.mem_append_right _ found)
        · refine apart_of_careful plain step first.isPlainName ?_ ?_ between
          · exact fun label old site found => apart label old site (List.mem_append_right _ found)
          · exact fun nonempty found =>
              once (List.append_ne_nil_of_left_ne_nil nonempty _) (List.mem_append_right _ found)

/-- The body of a macro is expanded carefully, as long as no label in the tables belongs to a call
that is expanded, and no call with local labels is expanded twice. -/
theorem careful_expandBody (keeps : KeepsMacros assemble) (s : State)
    (macros : LocalMacros s.macros) (found : s.macros.find? c.name = some c.definition)
    {calls : List MacroCall}
    (expanded : calls = bodyCalls assemble log c c.definition.lineNo c.definition.body
      { s with equates := s.equates.setAll (c.definition.params.zip c.arguments) })
    (apart : Apart s.names (localSites (c :: calls))) (nodup : (localSites (c :: calls)).Nodup) :
    Careful s.names [] (localSites (c :: calls)) (expandBody assemble c s) := by
  obtain ⟨-, names, distinct, defines⟩ := macros c.name c.definition found
  have listed : names ≠ [] → localSites (c :: calls) = c.site :: localSites calls := by
    intro nonempty
    rw [localSites_cons, if_pos]
    by_contra without
    refine nonempty (defines.eq_nil fun line member marked => without ?_)
    exact List.any_eq_true.mpr ⟨line, member, by simpa using marked⟩
  have sub : (localSites calls).Sublist (localSites (c :: calls)) := by
    rw [localSites_cons]
    split
    · exact List.sublist_cons_self _ _
    · exact List.Sublist.refl _
  have body := careful_assembleBody careful plain keeps defines distinct c.definition.lineNo
    { s with equates := s.equates.setAll (c.definition.params.zip c.arguments) } macros
  rw [← expanded] at body
  have careful := body
    (by
      intro name named taken
      have first : c.site ∈ localSites (c :: calls) := by simp [listed (List.ne_nil_of_mem named)]
      exact apart _ taken c.site first
        (MacroCall.owns_mark_append plain (defines.isPlainName name named)))
    (by
      intro nonempty
      rw [listed nonempty] at nodup
      exact (List.nodup_cons.mp nodup).1)
    (fun label taken site member => apart label taken site (sub.subset member))
    (nodup.sublist sub)
  refine ⟨fun a result label member => ?_, careful.failure⟩
  rcases careful.success a result label member with old | new | ⟨site, member, owns⟩
  · exact .inl old
  · obtain ⟨name, named, rfl⟩ := List.mem_map.mp new
    have first : c.site ∈ localSites (c :: calls) := by simp [listed (List.ne_nil_of_mem named)]
    exact .inr (.inr ⟨c.site, first,
      MacroCall.owns_mark_append plain (defines.isPlainName name named)⟩)
  · exact .inr (.inr ⟨site, sub.subset member, owns⟩)

/-- So is a call, which may also be refused. -/
theorem careful_expandCall (keeps : KeepsMacros assemble) (active : List Text) (s : State)
    (macros : LocalMacros s.macros) (found : s.macros.find? c.name = some c.definition)
    (apart : Apart s.names (localSites (callCalls active assemble log c s)))
    (nodup : (localSites (callCalls active assemble log c s)).Nodup) :
    Careful s.names [] (localSites (callCalls active assemble log c s))
      (expandCall active assemble c s) := by
  unfold expandCall
  unfold callCalls at apart nodup ⊢
  split
  · exact .refuse (by decide)
  · split
    · exact .refuse (by decide)
    · simp only [if_neg ‹¬ c.arguments.length ≠ c.definition.params.length›,
        if_neg ‹¬ active.any _ = true›] at apart nodup ⊢
      exact careful_expandBody careful plain keeps s macros found rfl apart nodup

end Expansion

/-! ### Lines -/

section Lines

variable [Interpreter]

/-- A way to expand calls that is careful as long as no label is taken that the calls it expands
define. -/
def CarefulCalls (expand : MacroCall → State → Outcome Unit)
    (calls : MacroCall → State → List MacroCall) : Prop :=
  ∀ (c : MacroCall) (s : State), LocalMacros s.macros →
    s.macros.find? c.name = some c.definition → Apart s.names (localSites (calls c s)) →
    (localSites (calls c s)).Nodup → Careful s.names [] (localSites (calls c s)) (expand c s)

theorem careful_assembleWords {expand : MacroCall → State → Outcome Unit}
    {calls : MacroCall → State → List MacroCall} (careful : CarefulCalls expand calls)
    (lineNo : Nat) (words : List Text) (s : State) (macros : LocalMacros s.macros)
    (apart : Apart s.names (localSites (wordsCalls calls lineNo words s)))
    (nodup : (localSites (wordsCalls calls lineNo words s)).Nodup) :
    Careful s.names [] (localSites (wordsCalls calls lineNo words s))
      (assembleWords expand lineNo words s) := by
  unfold assembleWords
  unfold wordsCalls at apart nodup ⊢
  split
  · exact careful_defineEquate s words _
  · rename_i noEquate
    simp only [if_neg noEquate] at apart nodup ⊢
    generalize replaceEquates s.equates words = replaced at apart nodup ⊢
    cases replaced with
    | nil => exact .ok rfl
    | cons name arguments =>
      dsimp only at apart nodup ⊢
      cases found : s.macros.find? name with
      | none => exact careful_emit s lineNo _ _
      | some definition =>
        rw [found] at apart nodup
        exact careful ⟨lineNo, name, definition, arguments⟩ s macros found apart nodup

theorem replaceExpressions_cause {equates : Dictionary Text} {line : Text} {problem : Problem}
    (h : replaceExpressions equates line = .error problem) : problem.cause ≠ .labelDuplicate := by
  unfold replaceExpressions at h
  dsimp only at h
  split at h
  · cases h
    simp [Problem.cause]
  · cases h

theorem careful_assembleLineWith {expand : MacroCall → State → Outcome Unit}
    {calls : MacroCall → State → List MacroCall} (careful : CarefulCalls expand calls) :
    CarefulLines (assembleLineWith expand) (lineCallsWith calls) := by
  intro lineNo line s labels macros takes distinct fresh apart nodup
  unfold assembleLineWith
  unfold lineCallsWith at apart nodup ⊢
  dsimp only at apart nodup ⊢
  cases replaced : replaceExpressions (s.atLine lineNo).equates (replaceCharacters line) with
  | error problem =>
    refine ⟨fun _ h => (by cases h), fun other h => ?_⟩
    cases h
    exact replaceExpressions_cause replaced
  | ok text =>
    have labelled : Careful s.names labels [] ((s.atLine lineNo).defineLabels lineNo text) :=
      careful_defineLabelsWithin lineNo text.length (takes _ _ replaced) distinct
        (s.atLine lineNo) fresh
    have same : ((s.atLine lineNo).defineLabels lineNo text).1.macros = s.macros :=
      State.macros_defineLabelsWithin lineNo _ _ _
    simp only [replaced] at apart nodup ⊢
    cases defined : (s.atLine lineNo).defineLabels lineNo text with
    | mk t outcome =>
      rw [defined] at labelled same
      simp only [defined] at apart nodup ⊢
      cases outcome with
      | error problem => exact labelled.error rfl
      | ok behind =>
        have known : ∀ label ∈ t.names, label ∈ s.names ++ labels := by
          intro label member
          simpa using labelled.success behind rfl label member
        have words := careful_assembleWords careful lineNo behind.fields t (same ▸ macros)
          (fun label member => apart label (known label member)) nodup
        simpa using labelled.trans words

/-- Lines are assembled carefully, however deep calls are expanded. -/
theorem careful_assembleLine (depth : Nat) (active : List Text) :
    CarefulLines (assembleLine depth active) (lineCalls depth active) := by
  induction depth generalizing active with
  | zero =>
    refine careful_assembleLineWith fun c s macros found apart nodup => ?_
    have refused : CarefulLines (fun _ _ s => s.refuse c.name .macroRecursion) fun _ _ _ => [] :=
      fun _ _ _ _ _ _ _ _ _ _ => .refuse (by decide)
    exact careful_expandCall refused (macros _ _ found).1 (fun _ _ _ => rfl) active s macros found
      apart nodup
  | succ depth ih =>
    refine careful_assembleLineWith fun c s macros found apart nodup => ?_
    exact careful_expandCall (ih (c.name :: active)) (macros _ _ found).1
      (macros_assembleLine depth _) active s macros found apart nodup

end Lines

end Assembly

end StackMachine
