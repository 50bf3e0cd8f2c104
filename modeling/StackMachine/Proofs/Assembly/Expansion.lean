import StackMachine.Assembly.Source

/-!
# Macro expansions

Assembling a line may expand a macro, whose body lines may expand others. This module lists
the calls that are expanded on the way, in the order in which they begin, and says from
which lines they are made: the first call of a line from this line, and every other from a
line of the body of a macro. Assembling never changes the macros themselves.

## Main definitions

* `Assembly.Problem.cause`: what is wrong in the end, behind the calls that led to it.
* `Assembly.lineCalls`: the calls that assembling a line expands.
* `Assembly.Reader.nestedCalls`: the calls in a source text that macro bodies make.
* `Assembly.State.InBody`: the numbers of the lines of macro bodies.

## Main results

* `Assembly.macros_assembleLine`: assembling a line keeps the macros.
* `Assembly.placed_lineCalls`: from which lines the calls of a line are made.
-/

namespace StackMachine

namespace Assembly

/-- What is wrong in the end, behind all calls that led to it. -/
def Problem.cause : Problem → Cause
  | plain _ cause => cause
  | expansion _ _ _ inner => inner.cause

/-! ### Macros are kept -/

namespace State

variable (s : State) (lineNo : Nat)

/-- Assembling words adds statements only. -/
theorem exists_emit (words : List Text) :
    ∃ statements, (s.emit lineNo words).1 = { s with statements := statements } := by
  unfold emit
  repeat' split
  all_goals exact ⟨_, rfl⟩

/-- Defining an equate changes the equates only. -/
theorem exists_defineEquate (words : List Text) :
    ∃ equates, (s.defineEquate words).1 = { s with equates := equates } := by
  unfold defineEquate
  repeat' split
  all_goals exact ⟨_, rfl⟩

theorem macros_defineLabelsWithin (fuel : Nat) (s : State) (line : Text) :
    (defineLabelsWithin lineNo fuel s line).1.macros = s.macros := by
  induction fuel generalizing s line with
  | zero => rfl
  | succ fuel ih =>
    unfold defineLabelsWithin
    split
    · rfl
    · split
      · rfl
      · split
        · rfl
        · exact ih _ _

/-- Where no label stands at the front of a line, none is taken off. -/
theorem defineLabels_of_unlabelled {line : Text} (h : takeLabel? line = none) :
    s.defineLabels lineNo line = (s, .ok line) := by
  unfold defineLabels defineLabelsWithin
  split
  · rfl
  · rw [h]

end State

open State

/-- A way to assemble lines that keeps the macros. -/
def KeepsMacros (assemble : LineAssembler) : Prop :=
  ∀ (lineNo : Nat) (line : Text) (s : State), (assemble lineNo line s).1.macros = s.macros

theorem macros_assembleBody {assemble : LineAssembler} (keeps : KeepsMacros assemble)
    (c : MacroCall) (lineNo : Nat) (body : List Text) (s : State) :
    (assembleBody assemble c lineNo body s).1.macros = s.macros := by
  induction body generalizing lineNo s with
  | nil => rfl
  | cons line rest ih =>
    have first := keeps lineNo (localise c.mark line) s
    simp only [assembleBody]
    split
    · rename_i t result
      rw [result] at first
      rw [ih, first]
    · rename_i t problem result
      rw [result] at first
      exact first

theorem macros_expandCall {assemble : LineAssembler} (keeps : KeepsMacros assemble)
    (active : List Text) (c : MacroCall) (s : State) :
    (expandCall active assemble c s).1.macros = s.macros := by
  unfold expandCall
  split
  · rfl
  · split
    · rfl
    · exact macros_assembleBody keeps c _ _ _

variable [Interpreter]

theorem macros_assembleLineWith {expand : MacroCall → State → Outcome Unit}
    (keeps : ∀ c s, (expand c s).1.macros = s.macros) : KeepsMacros (assembleLineWith expand) := by
  intro lineNo line s
  unfold assembleLineWith
  dsimp only
  split
  · rfl
  · rename_i replaced _
    have labelled := macros_defineLabelsWithin lineNo replaced.length (s.atLine lineNo) replaced
    split
    · rename_i t problem result
      rw [defineLabels] at result
      rw [result] at labelled
      exact labelled
    · rename_i t behind result
      rw [defineLabels] at result
      rw [result] at labelled
      refine Eq.trans ?_ labelled
      unfold assembleWords
      split
      · obtain ⟨equates, defined⟩ := t.exists_defineEquate behind.fields
        rw [defined]
      · dsimp only
        split
        · rfl
        · split
          · exact keeps _ t
          · obtain ⟨statements, emitted⟩ :=
              t.exists_emit lineNo (replaceEquates t.equates behind.fields)
            simp_all

/-- Assembling a line keeps the macros, however deep calls are expanded. -/
theorem macros_assembleLine (depth : Nat) (active : List Text) :
    KeepsMacros (assembleLine depth active) := by
  induction depth generalizing active with
  | zero =>
    refine macros_assembleLineWith fun c s => ?_
    exact macros_expandCall (fun _ _ _ => rfl) active c s
  | succ depth ih =>
    refine macros_assembleLineWith fun c s => ?_
    exact macros_expandCall (ih (c.name :: active)) active c s

/-! ### The calls that are expanded -/

/-- What calls assembling a line expands, given its number. -/
abbrev CallLog := Nat → Text → State → List MacroCall

/-- The calls that the lines of a macro body expand, the first of which is number `lineNo`. -/
def bodyCalls (assemble : LineAssembler) (log : CallLog) (c : MacroCall) :
    Nat → List Text → State → List MacroCall
  | _, [], _ => []
  | lineNo, line :: rest, s =>
    let line := localise c.mark line
    log lineNo line s ++
      match assemble lineNo line s with
      | (s, .ok ()) => bodyCalls assemble log c (lineNo + 1) rest s
      | (_, .error _) => []

/-- A call that is expanded, and the calls that its body expands. -/
def callCalls (active : List Text) (assemble : LineAssembler) (log : CallLog) (c : MacroCall)
    (s : State) : List MacroCall :=
  if c.arguments.length ≠ c.definition.params.length then []
  else if active.any (· = c.name) then []
  else
    let equates := s.equates.setAll (c.definition.params.zip c.arguments)
    c :: bodyCalls assemble log c c.definition.lineNo c.definition.body
      { s with equates := equates }

/-- The calls that the words of a line expand. -/
def wordsCalls (calls : MacroCall → State → List MacroCall) (lineNo : Nat) (words : List Text)
    (s : State) : List MacroCall :=
  if words.head? = some (Text.ofString ".equ") then []
  else
    match replaceEquates s.equates words with
    | [] => []
    | name :: arguments =>
      match s.macros.find? name with
      | some definition => calls ⟨lineNo, name, definition, arguments⟩ s
      | none => []

/-- The calls that a line expands, with those of a call given by `calls`. -/
def lineCallsWith (calls : MacroCall → State → List MacroCall) : CallLog :=
  fun lineNo line s =>
    let s := s.atLine lineNo
    match replaceExpressions s.equates (replaceCharacters line) with
    | .error _ => []
    | .ok line =>
      match s.defineLabels lineNo line with
      | (_, .error _) => []
      | (s, .ok line) => wordsCalls calls lineNo line.fields s

/-- The calls that a line expands while the macros `active` are being expanded and at most `depth`
others can be. -/
def lineCalls : Nat → List Text → CallLog
  | 0, active =>
    lineCallsWith fun c s =>
      callCalls active (fun _ _ s => s.refuse c.name .macroRecursion) (fun _ _ _ => []) c s
  | depth + 1, active =>
    lineCallsWith fun c s =>
      callCalls active (assembleLine depth (c.name :: active))
        (lineCalls depth (c.name :: active)) c s

/-- The calls that reading one more line expands. -/
def Reader.readCalls (r : Reader) (raw : Text) : List MacroCall :=
  let line := stripComment raw
  let words := Text.fields line
  if words.head? = some (Text.ofString ".macro") then []
  else if words.head? = some (Text.ofString ".endm") then []
  else
    match r.openMacro with
    | some _ => []
    | none => lineCalls r.state.macros.entries.length [] (r.lineNo + 1) line r.state

/-- The calls that are expanded while lines are read, but for those made by these lines
themselves: a line makes one call at most, which comes first. -/
def Reader.nestedCalls (r : Reader) : List Text → List MacroCall
  | [] => []
  | raw :: rest =>
    (r.readCalls raw).tail ++
      match r.read raw with
      | (r, none) => r.nestedCalls rest
      | (_, some _) => []

/-! ### Where calls are made -/

/-- The numbers of the lines of macro bodies. -/
def State.InBody (s : State) (lineNo : Nat) : Prop :=
  ∃ name definition, s.macros.find? name = some definition ∧
    definition.lineNo ≤ lineNo ∧ lineNo < definition.lineNo + definition.body.length

/-- A log of calls that are made from the line itself, and then from lines of macro bodies. -/
def CallLog.Placed (log : CallLog) : Prop :=
  ∀ (lineNo : Nat) (line : Text) (s : State), log lineNo line s = [] ∨
    ∃ c rest, log lineNo line s = c :: rest ∧ c.lineNo = lineNo ∧
      ∀ d ∈ rest, s.InBody d.lineNo

omit [Interpreter] in
theorem placed_bodyCalls {assemble : LineAssembler} {log : CallLog} (keeps : KeepsMacros assemble)
    (placed : log.Placed) (c : MacroCall) (lineNo : Nat) (body : List Text) (s : State)
    (inside : ∀ k < body.length, s.InBody (lineNo + k)) :
    ∀ d ∈ bodyCalls assemble log c lineNo body s, s.InBody d.lineNo := by
  induction body generalizing lineNo s with
  | nil => simp [bodyCalls]
  | cons line rest ih =>
    intro d member
    rcases List.mem_append.mp member with first | later
    · rcases placed lineNo (localise c.mark line) s with none | ⟨head, tail, calls, atLine, nested⟩
      · rw [none] at first
        cases first
      · rw [calls] at first
        rcases List.mem_cons.mp first with rfl | deeper
        · rw [atLine]
          exact inside 0 (by simp)
        · exact nested d deeper
    · have same := keeps lineNo (localise c.mark line) s
      split at later
      · rename_i t result
        rw [result] at same
        have others : ∀ k < rest.length, t.InBody (lineNo + 1 + k) := by
          intro k small
          have line := inside (k + 1) (by simpa using small)
          rw [State.InBody, same, Nat.add_right_comm]
          exact line
        have found := ih (lineNo + 1) t others d later
        rw [State.InBody, same] at found
        exact found
      · cases later

omit [Interpreter] in
/-- The calls that a call expands: itself, and then calls from lines of macro bodies. -/
theorem callCalls_cases {assemble : LineAssembler} {log : CallLog} (keeps : KeepsMacros assemble)
    (placed : log.Placed) (active : List Text) (c : MacroCall) (s : State)
    (found : s.macros.find? c.name = some c.definition) :
    callCalls active assemble log c s = [] ∨
      ∃ rest, callCalls active assemble log c s = c :: rest ∧ ∀ d ∈ rest, s.InBody d.lineNo := by
  unfold callCalls
  split
  · exact .inl rfl
  · split
    · exact .inl rfl
    · refine .inr ⟨_, rfl, ?_⟩
      refine placed_bodyCalls keeps placed c _ _ { s with equates := _ } fun k small => ?_
      exact ⟨c.name, c.definition, found, by omega, by omega⟩

theorem placed_lineCallsWith {calls : MacroCall → State → List MacroCall}
    (placed : ∀ (c : MacroCall) (s : State), s.macros.find? c.name = some c.definition →
      calls c s = [] ∨ ∃ rest, calls c s = c :: rest ∧ ∀ d ∈ rest, s.InBody d.lineNo) :
    CallLog.Placed (lineCallsWith calls) := by
  intro lineNo line s
  unfold lineCallsWith
  dsimp only
  split
  · exact .inl rfl
  · rename_i replaced _
    have labelled := macros_defineLabelsWithin lineNo replaced.length (s.atLine lineNo) replaced
    split
    · exact .inl rfl
    · rename_i t behind result
      rw [defineLabels] at result
      rw [result] at labelled
      have macros : t.macros = s.macros := labelled
      unfold wordsCalls
      split
      · exact .inl rfl
      · split
        · exact .inl rfl
        · split
          · rename_i definition found
            rcases placed ⟨lineNo, _, definition, _⟩ t found with none | ⟨rest, call, nested⟩
            · exact .inl none
            · refine .inr ⟨_, rest, call, rfl, fun d member => ?_⟩
              have body := nested d member
              rw [State.InBody, macros] at body
              exact body
          · exact .inl rfl

/-- The calls of a line are made from this line and then from lines of macro bodies. -/
theorem placed_lineCalls (depth : Nat) (active : List Text) :
    (lineCalls depth active).Placed := by
  induction depth generalizing active with
  | zero =>
    refine placed_lineCallsWith fun c s found => ?_
    exact callCalls_cases (fun _ _ _ => rfl) (fun _ _ _ => .inl rfl) active c s found
  | succ depth ih =>
    refine placed_lineCallsWith fun c s found => ?_
    exact callCalls_cases (macros_assembleLine depth _) (ih (c.name :: active)) active c s found

end Assembly

end StackMachine
