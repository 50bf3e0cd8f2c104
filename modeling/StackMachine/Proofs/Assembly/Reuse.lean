import StackMachine.Assembly.Expression.Eval
import StackMachine.Proofs.Assembly.LocalSources
import StackMachine.Proofs.Dictionaries

/-!
# Using an assembler again

An assembler is used for one source text after another, with new equates of its own in between.
Of all this only the last value of each of its own equates is kept: every source text begins with
tables that are made anew from these, and reading it asks the equates for nothing but the values
of names. So neither what was assembled or refused before nor the order in which equates were
set can be told from a program, an error or the tables that are left.

## Main definitions

* `Assembly.State.Same`: tables that say the same.
* `Assembly.Looks`: a way to assemble lines that asks the equates for values only.
* `Assembler.Call`, `Assembler.uses`: the uses of an assembler, and what they make of it.
* `Assembler.lastPredefines`: the last value of each equate that some uses set.

## Main results

* `Assembly.assembleLine_same`, `Assembly.Reader.Same.readAll`: tables that say the same are
  assembled to the same.
* `Assembler.parse_uses`: an assembler keeps nothing but the last values of its own equates.
-/

namespace StackMachine

namespace Assembly

/-! ### Tables that say the same -/

/-- Equates that give every name the same value. -/
def SameEquates (d e : Dictionary Text) : Prop :=
  ∀ name, d.find? name = e.find? name

/-- Tables that say the same: their equates may be listed in another order. -/
structure State.Same (s t : State) : Prop where
  statements : s.statements = t.statements
  labels : s.labels = t.labels
  macros : s.macros = t.macros
  lonely : s.lonely = t.lonely
  equates : SameEquates s.equates t.equates

/-- The same result, with something related left behind. -/
structure SameResult {σ β : Type} (R : σ → σ → Prop) (x y : σ × β) : Prop where
  related : R x.1 y.1
  result : x.2 = y.2

theorem SameResult.exists_eq {σ β : Type} {R : σ → σ → Prop} {x y : σ × β}
    (same : SameResult R x y) : ∃ s t result, x = (s, result) ∧ y = (t, result) ∧ R s t :=
  ⟨x.1, y.1, x.2, rfl, Prod.ext rfl same.result.symm, same.related⟩

/-- Outcomes with the same result and with tables that say the same. -/
abbrev SameOutcome {α : Type} (o o' : Outcome α) : Prop :=
  SameResult State.Same o o'

namespace SameEquates

variable {d e : Dictionary Text}

theorem set (same : SameEquates d e) (name value : Text) :
    SameEquates (d.set name value) (e.set name value) :=
  fun other => Dictionary.find?_set_congr (same other) name value

theorem setAll (same : SameEquates d e) (pairs : List (Text × Text)) :
    SameEquates (d.setAll pairs) (e.setAll pairs) := by
  intro name
  rw [Dictionary.find?_setAll, Dictionary.find?_setAll, same name]

theorem operandOf (same : SameEquates d e) (word : Text) :
    operandOf d word = operandOf e word := by
  simp only [Assembly.operandOf, same _]

theorem replaceEquates (same : SameEquates d e) (words : List Text) :
    replaceEquates d words = replaceEquates e words := by
  simp only [Assembly.replaceEquates, same _]

theorem replaceExpressions [Interpreter] (same : SameEquates d e) (line : Text) :
    replaceExpressions d line = replaceExpressions e line := by
  have values : equateValue d = equateValue e := funext fun name => by
    rw [equateValue, equateValue, same name]
  have pieces : replaceExpression d = replaceExpression e := funext fun behind => by
    rw [replaceExpression, replaceExpression, values]
  rw [Assembly.replaceExpressions, Assembly.replaceExpressions, pieces]

end SameEquates

namespace State

variable {s t : State}

/-- Tables say the same with other equates that do. -/
theorem Same.withEquates (same : s.Same t) {d e : Dictionary Text} (equates : SameEquates d e) :
    State.Same { s with equates := d } { t with equates := e } :=
  ⟨same.statements, same.labels, same.macros, same.lonely, equates⟩

theorem Same.withMacros (same : s.Same t) (macros : Dictionary MacroDef) :
    State.Same { s with macros := macros } { t with macros := macros } :=
  ⟨same.statements, same.labels, rfl, same.lonely, same.equates⟩

theorem Same.append (same : s.Same t) (statement : Statement) :
    (s.append statement).Same (t.append statement) :=
  ⟨by rw [State.append, State.append, same.statements], same.labels, same.macros, same.lonely,
    same.equates⟩

theorem Same.address (same : s.Same t) : s.address = t.address := by
  rw [State.address, State.address, same.statements]

theorem Same.addLabel (same : s.Same t) (lineNo : Nat) (name : Text) :
    (s.addLabel lineNo name).Same (t.addLabel lineNo name) :=
  ⟨same.statements, by rw [State.addLabel, State.addLabel, same.labels, same.address], same.macros,
    rfl, same.equates⟩

theorem Same.refuse {α : Type} (same : s.Same t) (token : Text) (cause : Cause) :
    SameOutcome (s.refuse token cause : Outcome α) (t.refuse token cause) :=
  ⟨same, rfl⟩

/-! ### Lines -/

theorem Same.emit (same : s.Same t) (lineNo : Nat) (words : List Text) :
    SameOutcome (s.emit lineNo words) (t.emit lineNo words) := by
  have statement (op : Opcode) (operand : Option Operand) :
      t.statement lineNo words op operand = s.statement lineNo words op operand := by
    rcases operand with _ | value | name <;> simp only [State.statement, same.address]
  unfold State.emit
  simp only [← same.equates.operandOf, statement]
  repeat' split
  all_goals first
    | exact ⟨same, rfl⟩
    | exact ⟨same.append _, rfl⟩

theorem Same.defineLabelsWithin (same : s.Same t) (lineNo fuel : Nat) (line : Text) :
    SameOutcome (State.defineLabelsWithin lineNo fuel s line)
      (State.defineLabelsWithin lineNo fuel t line) := by
  induction fuel generalizing s t line with
  | zero => exact ⟨same, rfl⟩
  | succ fuel ih =>
    unfold State.defineLabelsWithin
    have known (name : Text) : t.hasLabel name = s.hasLabel name := by
      rw [State.hasLabel, State.hasLabel, same.labels]
    simp only [known]
    split
    · exact ⟨same, rfl⟩
    · split_ifs
      · exact same.refuse _ _
      · exact same.refuse _ _
      · exact ih (same.addLabel lineNo _) _

theorem Same.defineEquate (same : s.Same t) (words : List Text) :
    SameOutcome (s.defineEquate words) (t.defineEquate words) := by
  have known (name : Text) : t.equates.contains name = s.equates.contains name := by
    rw [Dictionary.contains, Dictionary.contains, same.equates name]
  unfold State.defineEquate
  simp only [known]
  split
  · split_ifs
    · exact same.refuse _ _
    · exact ⟨same.withEquates (same.equates.set _ _), rfl⟩
  · exact same.refuse _ _

end State

/-- A way to assemble lines that asks the equates for nothing but the values of names. -/
def Looks (assemble : LineAssembler) : Prop :=
  ∀ (lineNo : Nat) (line : Text) (s t : State), s.Same t →
    SameOutcome (assemble lineNo line s) (assemble lineNo line t)

section Lines

variable {s t : State} {assemble : LineAssembler} {expand : MacroCall → State → Outcome Unit}

theorem Looks.body (looks : Looks assemble) (same : s.Same t) (c : MacroCall) (lineNo : Nat)
    (lines : List Text) :
    SameOutcome (assembleBody assemble c lineNo lines s)
      (assembleBody assemble c lineNo lines t) := by
  induction lines generalizing s t lineNo with
  | nil => exact ⟨same, rfl⟩
  | cons line rest ih =>
    obtain ⟨u, v, result, first, firstOther, after⟩ :=
      (looks lineNo (localise c.mark line) s t same).exists_eq
    simp only [assembleBody, first, firstOther]
    rcases result with p | ⟨⟩
    · exact ⟨after, rfl⟩
    · exact ih after _

theorem Looks.call (looks : Looks assemble) (active : List Text) (c : MacroCall) (s t : State)
    (same : s.Same t) :
    SameOutcome (expandCall active assemble c s) (expandCall active assemble c t) := by
  unfold expandCall
  split_ifs
  · exact same.refuse _ _
  · exact same.refuse _ _
  · have entered := same.equates.setAll (c.definition.params.zip c.arguments)
    have inside := looks.body (same.withEquates entered) c c.definition.lineNo c.definition.body
    exact ⟨inside.related.withEquates same.equates, inside.result⟩

/-- A way to expand calls that asks the equates for nothing but the values of names gives such a
way to assemble lines. -/
theorem looks_assembleLineWith [Interpreter]
    (expands : ∀ c s t, s.Same t → SameOutcome (expand c s) (expand c t)) :
    Looks (assembleLineWith expand) := by
  intro lineNo line s t same
  have now : (s.atLine lineNo).Same (t.atLine lineNo) := same.withEquates (same.equates.set _ _)
  simp only [assembleLineWith, ← now.equates.replaceExpressions]
  split
  · exact ⟨now, rfl⟩
  · rename_i replaced _
    obtain ⟨u, v, result, labelled, labelledOther, after⟩ :=
      (now.defineLabelsWithin lineNo replaced.length replaced).exists_eq
    simp only [State.defineLabels, labelled, labelledOther]
    rcases result with p | behind
    · exact ⟨after, rfl⟩
    · simp only [assembleWords, ← after.equates.replaceEquates, ← after.macros]
      split_ifs
      · exact after.defineEquate _
      · split
        · exact ⟨after, rfl⟩
        · split
          · exact expands _ u v after
          · exact after.emit _ _

/-- A line is assembled to the same with tables that say the same. -/
theorem assembleLine_same [Interpreter] (depth : Nat) (active : List Text) :
    Looks (assembleLine depth active) := by
  induction depth generalizing active with
  | zero =>
    refine looks_assembleLineWith fun c s t same => ?_
    have refuses : Looks fun _ _ s => s.refuse c.name .macroRecursion :=
      fun _ _ _ _ same => same.refuse _ _
    exact refuses.call active c s t same
  | succ depth ih =>
    exact looks_assembleLineWith fun c s t same => (ih (c.name :: active)).call active c s t same

end Lines

/-! ### Reading -/

namespace Reader

/-- Readers that have come equally far, with tables that say the same. -/
structure Same (r q : Reader) : Prop where
  state : r.state.Same q.state
  openMacro : r.openMacro = q.openMacro
  lineNo : r.lineNo = q.lineNo
  line : r.line = q.line

variable {r q : Reader}

theorem Same.advance (same : r.Same q) (line : Text) : (r.advance line).Same (q.advance line) :=
  ⟨same.state, same.openMacro, congrArg (· + 1) same.lineNo, rfl⟩

theorem Same.beginMacro (same : r.Same q) (words : List Text) :
    SameResult Same (r.beginMacro words) (q.beginMacro words) := by
  unfold Reader.beginMacro
  simp only [← same.openMacro, ← same.state.macros, ← same.lineNo]
  split
  · exact ⟨same, rfl⟩
  · split_ifs
    · exact ⟨same, rfl⟩
    · exact ⟨⟨same.state.withMacros _, rfl, rfl, same.line⟩, rfl⟩
  · exact ⟨same, rfl⟩

theorem Same.endMacro (same : r.Same q) : SameResult Same r.endMacro q.endMacro := by
  unfold Reader.endMacro
  simp only [← same.openMacro]
  split
  · exact ⟨same, rfl⟩
  · exact ⟨⟨same.state, rfl, same.lineNo, same.line⟩, rfl⟩

theorem Same.extendMacro (same : r.Same q) (name line : Text) :
    (r.extendMacro name line).Same (q.extendMacro name line) := by
  unfold Reader.extendMacro
  simp only [← same.state.macros]
  split
  · exact same
  · exact ⟨same.state.withMacros _, same.openMacro, same.lineNo, same.line⟩

section

variable [Interpreter]

theorem Same.assembleCurrent (same : r.Same q) :
    SameResult Same r.assembleCurrent q.assembleCurrent := by
  obtain ⟨u, v, result, line, lineOther, after⟩ := (assembleLine_same
    r.state.macros.entries.length [] r.lineNo r.line _ _ same.state).exists_eq
  unfold Reader.assembleCurrent
  simp only [← same.state.macros, ← same.lineNo, ← same.line, line, lineOther]
  rcases result with p | ⟨⟩
  · exact ⟨⟨after, same.openMacro, rfl, rfl⟩, rfl⟩
  · exact ⟨⟨after, same.openMacro, rfl, rfl⟩, rfl⟩

theorem Same.read (same : r.Same q) (raw : Text) :
    SameResult Same (r.read raw) (q.read raw) := by
  have next := same.advance (stripComment raw)
  simp only [read_eq, ← same.openMacro]
  split_ifs
  · exact next.beginMacro _
  · exact next.endMacro
  · split
    · exact ⟨next.extendMacro _ _, rfl⟩
    · exact next.assembleCurrent

theorem Same.readAll (same : r.Same q) (lines : List Text) :
    SameResult Same (r.readAll lines) (q.readAll lines) := by
  induction lines generalizing r q with
  | nil => exact ⟨same, rfl⟩
  | cons raw rest ih =>
    obtain ⟨u, v, result, first, firstOther, after⟩ := (same.read raw).exists_eq
    simp only [Reader.readAll, first, firstOther]
    cases result with
    | none => exact ih after
    | some problem => exact ⟨after, rfl⟩

end

/-! ### The end of a source text -/

theorem Same.lonelyLabel? (same : r.Same q) : r.state.lonelyLabel? = q.state.lonelyLabel? := by
  rw [State.lonelyLabel?, State.lonelyLabel?, same.state.labels, same.state.address]

theorem link_same {s t : State} (same : s.Same t) : s.link = t.link := by
  funext statement
  simp only [State.link, State.labelAddress?, same.labels]

theorem Same.finish (same : r.Same q) (overlong : Bool) :
    r.finish overlong = q.finish overlong := by
  have linked (statements : List Statement) :
      r.state.linkAll statements = q.state.linkAll statements := by
    induction statements with
    | nil => rfl
    | cons statement rest ih => rw [State.linkAll, State.linkAll, link_same same.state, ih]
  simp only [Reader.finish, Reader.failure, same.lineNo, same.line, same.openMacro,
    same.lonelyLabel?, same.state.lonely, same.state.statements, same.state.labels, linked]

theorem Same.settled (same : r.Same q) (overlong : Bool) :
    (r.settled overlong).Same (q.settled overlong) := by
  have linked (statements : List Statement) :
      r.state.linkFront statements = q.state.linkFront statements := by
    induction statements with
    | nil => rfl
    | cons statement rest ih => rw [State.linkFront, State.linkFront, link_same same.state, ih]
  unfold Reader.settled
  simp only [same.openMacro, same.lonelyLabel?]
  split_ifs
  · exact same.state
  · have statements := same.state.statements
    exact ⟨by rw [statements, linked], same.state.labels, same.state.macros, same.state.lonely,
      same.state.equates⟩

end Reader

end Assembly

open Assembly

namespace Assembler

/-! ### Uses -/

section

variable [Interpreter]

/-- The assemblers' own equates decide about what a source text is assembled to, and only the values
that they give to names. -/
theorem parse_same {a b : Assembler} (same : a.reader.Same b.reader) (source : Text) :
    (a.parse source).1.state.Same (b.parse source).1.state ∧
      (a.parse source).2 = (b.parse source).2 := by
  obtain ⟨r, q, result, read, readOther, after⟩ :=
    (same.readAll (Lines.ofText source).lines).exists_eq
  simp only [parse, read, readOther]
  cases result with
  | none => exact ⟨after.settled _, after.finish _⟩
  | some problem =>
    exact ⟨after.state, by simp only [Reader.failure, after.lineNo, after.line]⟩

/-- What can be done with an assembler. -/
inductive Call where
  /-- To set an equate of its own. -/
  | predefine (name value : Text)
  /-- To assemble a source text. -/
  | parse (source : Text)
  deriving DecidableEq

/-- What a use makes of an assembler. -/
def Call.apply : Call → Assembler → Assembler
  | predefine name value, a => a.predefine name value
  | parse source, a => (a.parse source).1

/-- The assembler after some uses. -/
def uses (a : Assembler) (calls : List Call) : Assembler :=
  calls.foldl (fun a call => call.apply a) a

/-- The equate that a use sets. -/
def Call.predefined? : Call → Option (Text × Text)
  | predefine name value => some (name, value)
  | parse _ => none

/-- The last value of each equate that some uses set. -/
def lastPredefines (calls : List Call) : List (Text × Text) :=
  Dictionary.lastOfEach (calls.filterMap Call.predefined?)

@[simp] theorem predefines_parse (a : Assembler) (source : Text) :
    (a.parse source).1.predefines = a.predefines := by
  unfold parse
  dsimp only
  split <;> rfl

/-- Source texts leave the assembler's own equates alone. -/
theorem predefines_uses (a : Assembler) (calls : List Call) :
    (a.uses calls).predefines = a.predefines.setAll (calls.filterMap Call.predefined?) := by
  induction calls generalizing a with
  | nil => rfl
  | cons call rest ih =>
    rw [uses, List.foldl_cons, ← uses, ih]
    cases call with
    | predefine name value => rfl
    | parse source =>
      have kept : (Call.apply (.parse source) a).predefines = a.predefines :=
        predefines_parse a source
      rw [kept, List.filterMap_cons_none rfl]

omit [Interpreter] in
/-- A source text begins with the last value of each equate that was set. -/
theorem find?_reader (pairs : List (Text × Text)) (name : Text) :
    (reader { predefines := Dictionary.setAll {} pairs }).state.equates.find? name =
      (Dictionary.findIn? name pairs.reverse).or
        ((Dictionary.ofList standardEquates).find? name) := by
  have listed : (Dictionary.setAll {} pairs).Listed := Dictionary.listed_empty.setAll pairs
  have own : Dictionary.findIn? name (Dictionary.setAll {} pairs).entries =
      Dictionary.findIn? name pairs.reverse :=
    (Dictionary.find?_setAll {} pairs name).trans (Option.or_none)
  rw [← own]
  exact Dictionary.find?_setAll_of_nodup _ name listed.nodup

/-- Equates that are set again and again begin a source text like their last values, in any
order. -/
theorem reader_same (calls : List Call) {last : List (Text × Text)}
    (same : last.Perm (lastPredefines calls)) :
    (uses {} calls).reader.Same (({} : Assembler).predefineAll last).reader := by
  refine ⟨⟨rfl, rfl, rfl, rfl, fun name => ?_⟩, rfl, rfl, rfl⟩
  have distinct : (last.map Prod.fst).Nodup :=
    (same.map Prod.fst).nodup_iff.mpr (Dictionary.nodup_lastOfEach _)
  have values : Dictionary.findIn? name last.reverse =
      Dictionary.findIn? name (calls.filterMap Call.predefined?).reverse := by
    rw [← Dictionary.findIn?_perm distinct last.reverse_perm.symm,
      Dictionary.findIn?_perm distinct same, lastPredefines, Dictionary.findIn?_lastOfEach]
  have used := find?_reader (calls.filterMap Call.predefined?) name
  have fresh := find?_reader last name
  rw [reader] at used fresh ⊢
  rw [predefines_uses, used, ← values, ← fresh]
  rfl

/-- **An assembler keeps nothing but its own equates.** Whatever equates it was given and whatever
source texts it accepted or refused before, at whatever point, a source text has the program or the
error of a new assembler that was given the last value of each equate only, in any order, and it
leaves the same tables behind. -/
theorem parse_uses (calls : List Call) (last : List (Text × Text))
    (made : last.Perm (lastPredefines calls)) (source : Text) :
    let used := (uses {} calls).parse source
    let fresh := (({} : Assembler).predefineAll last).parse source
    used.2 = fresh.2 ∧ used.1.state.Same fresh.1.state := by
  obtain ⟨tables, result⟩ := parse_same (reader_same calls made) source
  exact ⟨result, tables⟩

end

/-! ### An assembler with a past -/

/-- A source text that ends inside of the definition of a macro. -/
def unendedSource : Text :=
  "X: PUSH A\n.macro M\nPUSH B\n"

/-- A source text that is refused inside of a call inside of a call. -/
def nestedFailure : Text :=
  ".macro I x\nX: PUSH x\nNOWHERE\n.endm\n.macro O x\nI x\n.endm\n.equ C 4\nO C\n"

/-- An assembler that refused both texts, and was told one of its equates twice. -/
def pastCalls : List Call :=
  [.predefine "A" "1", .parse unendedSource, .predefine "B" "2", .parse nestedFailure,
    .predefine "A" "7"]

attribute [local instance] Assembly.Expression.interpreter

/-- The names that were in use can be used again, and `A` has its last value. -/
theorem parse_uses_past :
    ((uses {} (pastCalls.take 1)).parse unendedSource).2 =
        .error ⟨3, "PUSH B", .plain [] .macroOpen⟩ ∧
      ((uses {} (pastCalls.take 3)).parse nestedFailure).2 =
        .error ⟨9, "O C", .expansion "O" 6 "I x" (.expansion "I" 3 "NOWHERE"
          (.plain "NOWHERE" .opcodeInvalid))⟩ ∧
      [(("A" : Text), ("7" : Text)), ("B", "2")].Perm (lastPredefines pastCalls) ∧
      ((uses {} pastCalls).parse "I: PUSH A\n.equ C B\nX: JMP X\n").2.map
          (fun p => p.statements.toList.map (·.instr.operand)) = .ok [7, 1] := by
  have made : [(("A" : Text), ("7" : Text)), ("B", "2")].Perm (lastPredefines pastCalls) := by
    decide
  refine ⟨by decide +kernel, by decide +kernel, made, ?_⟩
  rw [(parse_uses pastCalls _ made _).1]
  decide +kernel

end Assembler

end StackMachine
