import StackMachine.Assembly.Expression.Eval
import StackMachine.Proofs.Assembly.LocalUniqueness

/-!
# Source texts with local labels

The reader of a source text keeps the lines of macro bodies and assembles all others. This
module carries the uniqueness of local labels through its lines, with an invariant that
tells for each label in the tables where the call was made that defined it. A call outside
of macro bodies is made from a line that was not read before, so it has a mark of its own.
A call from a macro body gets the same mark in every expansion of this body: a source text
all of whose labels are local is still refused where such a call is expanded twice.

## Main definitions

* `Assembly.Reader.Tidy`: the invariant of the reader.
* `Assembly.checkLocalsFrom`: a check that all labels are local, for lines with one label at most.
* `Assembler.nestedCalls`: the calls in a source text that macro bodies make.

## Main results

* `Assembly.Reader.exists_keeps_read`: reading a line keeps the invariant.
* `Assembly.Reader.cause_readAll`: lines with local labels are not refused for one of them.
* `Assembler.parse_ne_labelDuplicate`: local labels are unique, unless a call from a macro body is
  expanded twice.
* `Assembler.parse_eq_labelDuplicate_nested`: a source text where this happens.
-/

namespace StackMachine

namespace Assembly

/-! ### The reader -/

/-- How the local labels of the current macro body stand for the reader: outside of all bodies no
macro is being defined; inside, the body read so far defines `names`. -/
def Reader.Opened [Interpreter] (r : Reader) : Option (List Text) → Prop
  | none => r.openMacro = none
  | some names => ∃ name definition, r.openMacro = some name ∧
      r.state.macros.find? name = some definition ∧
      definition.lineNo + definition.body.length = r.lineNo + 1 ∧
      BodyDefines definition.body names

/-- The invariant of a reader of local labels: `body` holds the names of the macro body that is
being read, and `sites` tells where calls with local labels were made from macro bodies. -/
structure Reader.Tidy [Interpreter] (r : Reader) (body : Option (List Text))
    (sites : List CallSite) : Prop where
  opened : r.Opened body
  macros : LocalMacros r.state.macros
  bounded : ∀ name definition, r.state.macros.find? name = some definition →
    definition.lineNo + definition.body.length ≤ r.lineNo + 1
  labels : ∀ label ∈ r.state.names, ∃ site : CallSite, site.Owns label ∧
    site.lineNo ≤ r.lineNo ∧ (site ∈ sites ∨ ¬ r.state.InBody site.lineNo)

namespace Reader

variable [Interpreter] {r : Reader} {body : Option (List Text)} {sites : List CallSite}

/-- Lines of macro bodies have been read. -/
theorem Tidy.le_of_inBody (tidy : r.Tidy body sites) {lineNo : Nat} (h : r.state.InBody lineNo) :
    lineNo ≤ r.lineNo := by
  obtain ⟨name, definition, found, -, inside⟩ := h
  have bound := tidy.bounded name definition found
  omega

/-- The reader at the next line. -/
def advance (r : Reader) (line : Text) : Reader :=
  { r with lineNo := r.lineNo + 1, line := line }

/-- The outcome of reading one more line: the invariant holds with what the line adds, or the line
is refused for another cause than a label that is defined twice. -/
structure Keeps (outcome : Reader × Option Problem) (body : Option (List Text))
    (sites : List CallSite) : Prop where
  success : outcome.2 = none → outcome.1.Tidy body sites
  failure : ∀ problem, outcome.2 = some problem → problem.cause ≠ .labelDuplicate

theorem Keeps.refuse {next : Reader} {token : Text} {cause : Cause}
    (other : cause ≠ .labelDuplicate) : Keeps (next, some (.plain token cause)) body sites where
  success := fun h => by cases h
  failure := fun problem h => by
    cases h
    exact other

theorem Keeps.ok {next : Reader} (tidy : next.Tidy body sites) : Keeps (next, none) body sites where
  success := fun _ => tidy
  failure := fun problem h => by cases h

/-- The beginning of a macro. -/
theorem keeps_beginMacro (tidy : r.Tidy body sites) (line : Text) {words : List Text}
    (plain : ∀ name ∈ words[1]?, isPlainName name = true) :
    Keeps ((r.advance line).beginMacro words) (some []) sites := by
  unfold beginMacro
  split
  · exact .refuse (by decide)
  · rename_i name params _
    split
    · exact .refuse (by decide)
    · refine .ok ⟨?_, ?_, ?_, ?_⟩
      · exact ⟨name, _, rfl, Dictionary.find?_set_self _ _ _, rfl, .nil⟩
      · intro other definition found
        rcases Dictionary.eq_or_find?_of_find?_set found with ⟨rfl, rfl⟩ | ⟨-, old⟩
        · exact ⟨plain other (by simp), [], List.nodup_nil, .nil⟩
        · exact tidy.macros other definition old
      · intro other definition found
        rcases Dictionary.eq_or_find?_of_find?_set found with ⟨rfl, rfl⟩ | ⟨-, old⟩
        · simp [advance]
        · have bound := tidy.bounded other definition old
          simp only [advance]
          omega
      · intro label member
        obtain ⟨site, owns, read, place⟩ := tidy.labels label member
        refine ⟨site, owns, Nat.le_succ_of_le read, place.imp_right fun outside inside => ?_⟩
        obtain ⟨other, definition, found, lower, upper⟩ := inside
        rcases Dictionary.eq_or_find?_of_find?_set found with ⟨rfl, rfl⟩ | ⟨-, old⟩
        · exact absurd upper (Nat.not_lt.mpr lower)
        · exact outside ⟨other, definition, old, lower, upper⟩
  · exact .refuse (by decide)

/-- The end of a macro. -/
theorem keeps_endMacro (tidy : r.Tidy body sites) (line : Text) :
    Keeps (r.advance line).endMacro none sites := by
  unfold endMacro
  split
  · exact .refuse (by decide)
  · refine .ok ⟨rfl, tidy.macros, fun name definition found => ?_, fun label member => ?_⟩
    · exact Nat.le_succ_of_le (tidy.bounded name definition found)
    · obtain ⟨site, owns, read, place⟩ := tidy.labels label member
      exact ⟨site, owns, Nat.le_succ_of_le read, place⟩

/-- A line of a macro body. -/
theorem keeps_extendMacro {names new : List Text} (tidy : r.Tidy (some names) sites) {line : Text}
    (defines : DefinesLocals line new) (distinct : (names ++ new).Nodup) {name : Text}
    (isOpen : r.openMacro = some name) :
    ((r.advance line).extendMacro name line).Tidy (some (names ++ new)) sites := by
  obtain ⟨opened, definition, same, found, ends, bodyDefines⟩ := tidy.opened
  obtain rfl : opened = name := Option.some.inj (same.symm.trans isOpen)
  have longer := bodyDefines.concat defines
  have entry : (r.advance line).state.macros.find? opened = some definition := found
  simp only [extendMacro, entry]
  refine ⟨?_, ?_, ?_, ?_⟩
  · refine ⟨opened, _, isOpen, Dictionary.find?_set_self _ _ _, ?_, longer⟩
    simp only [advance, List.length_append, List.length_singleton]
    omega
  · intro other entry member
    rcases Dictionary.eq_or_find?_of_find?_set member with ⟨rfl, rfl⟩ | ⟨-, old⟩
    · exact ⟨(tidy.macros _ _ found).1, _, distinct, longer⟩
    · exact tidy.macros other entry old
  · intro other entry member
    rcases Dictionary.eq_or_find?_of_find?_set member with ⟨rfl, rfl⟩ | ⟨-, old⟩
    · simp only [advance, List.length_append, List.length_singleton]
      omega
    · exact Nat.le_succ_of_le (tidy.bounded other entry old)
  · intro label member
    obtain ⟨site, owns, read, place⟩ := tidy.labels label member
    refine ⟨site, owns, Nat.le_succ_of_le read, place.imp_right fun outside inside => ?_⟩
    obtain ⟨other, entry, isEntry, lower, upper⟩ := inside
    rcases Dictionary.eq_or_find?_of_find?_set isEntry with ⟨rfl, rfl⟩ | ⟨-, old⟩
    · -- the new line of the body comes behind all lines read so far
      simp only [List.length_append, List.length_singleton] at lower upper
      exact outside ⟨_, definition, found, lower, by omega⟩
    · exact outside ⟨other, entry, old, lower, upper⟩

/-- What the calls of a line outside of macro bodies tell about their places: those with local
labels are all different, and no label in the tables belongs to any of them. -/
theorem Tidy.sites_of_calls (tidy : r.Tidy none sites) {calls : List MacroCall}
    (placed : calls = [] ∨ ∃ c rest, calls = c :: rest ∧ c.lineNo = r.lineNo + 1 ∧
      ∀ d ∈ rest, r.state.InBody d.lineNo)
    (nodup : (sites ++ localSites calls.tail).Nodup) :
    (localSites calls).Nodup ∧ Apart r.state.names (localSites calls) ∧
      ∀ site ∈ localSites calls, site.lineNo ≤ r.lineNo + 1 ∧
        (site ∈ sites ++ localSites calls.tail ∨ ¬ r.state.InBody site.lineNo) := by
  rcases placed with rfl | ⟨c, rest, rfl, onLine, inBodies⟩
  · exact ⟨List.nodup_nil, fun _ _ _ h => (by cases h), fun _ h => (by cases h)⟩
  · rw [List.tail_cons] at nodup ⊢
    obtain ⟨-, nodupRest, between⟩ := List.nodup_append.mp nodup
    have nested : ∀ site ∈ localSites rest, r.state.InBody site.lineNo := by
      intro site member
      obtain ⟨d, found, rfl⟩ := List.mem_map.mp member
      exact inBodies d (List.mem_of_mem_filter found)
    have outside : ¬ r.state.InBody c.site.lineNo := by
      intro inside
      have read := tidy.le_of_inBody inside
      simp only [MacroCall.site, onLine] at read
      omega
    have cases : ∀ site ∈ localSites (c :: rest), site = c.site ∨ site ∈ localSites rest := by
      intro site member
      rw [localSites_cons] at member
      split at member
      · exact List.mem_cons.mp member
      · exact .inr member
    refine ⟨?_, fun label known site member owns => ?_, fun site member => ?_⟩
    · rw [localSites_cons]
      split
      · exact List.nodup_cons.mpr ⟨fun member => outside (nested _ member), nodupRest⟩
      · exact nodupRest
    · -- a label in the tables was defined by a call from another line, or from a body before
      obtain ⟨owner, ownsLabel, read, place⟩ := tidy.labels label known
      obtain rfl := CallSite.eq_of_owns owns ownsLabel
      rcases cases site member with rfl | deeper
      · simp only [MacroCall.site, onLine] at read
        omega
      · rcases place with earlier | notInside
        · exact between site earlier site deeper rfl
        · exact notInside (nested site deeper)
    · rcases cases site member with rfl | deeper
      · exact ⟨by simp [MacroCall.site, onLine], .inr outside⟩
      · exact ⟨Nat.le_succ_of_le (tidy.le_of_inBody (nested site deeper)),
          .inl (List.mem_append_right _ deeper)⟩

/-- A line outside of macro bodies. -/
theorem keeps_assembleCurrent (tidy : r.Tidy none sites) {line : Text}
    (unlabelled : DefinesNone line) {calls : List MacroCall}
    (expanded : calls =
      lineCalls r.state.macros.entries.length [] (r.lineNo + 1) line r.state)
    (nodup : (sites ++ localSites calls.tail).Nodup) :
    Keeps (r.advance line).assembleCurrent none (sites ++ localSites calls.tail) := by
  have placed := placed_lineCalls r.state.macros.entries.length [] (r.lineNo + 1) line r.state
  rw [← expanded] at placed
  obtain ⟨distinct, apart, places⟩ := tidy.sites_of_calls placed nodup
  have careful := careful_assembleLine r.state.macros.entries.length [] (r.lineNo + 1) line r.state
    [] tidy.macros
    (fun equates replaced h => .none (unlabelled_of_trim (unlabelled equates replaced h)))
    List.nodup_nil (by simp) (by simpa [← expanded] using apart)
    (by simpa [← expanded] using distinct)
  have same := macros_assembleLine r.state.macros.entries.length [] (r.lineNo + 1) line r.state
  rw [← expanded] at careful
  unfold assembleCurrent
  simp only [advance]
  cases result : assembleLine r.state.macros.entries.length [] (r.lineNo + 1) line r.state with
  | mk t outcome =>
    rw [result] at careful same
    cases outcome with
    | error problem =>
      refine ⟨fun h => (by cases h), fun other h => ?_⟩
      cases h
      exact careful.failure problem rfl
    | ok _ =>
      refine .ok ⟨tidy.opened, ?_, ?_, ?_⟩
      · rw [same]
        exact tidy.macros
      · intro name definition found
        rw [same] at found
        exact Nat.le_succ_of_le (tidy.bounded name definition found)
      · intro label member
        have body : ∀ lineNo, t.InBody lineNo ↔ r.state.InBody lineNo := by
          intro lineNo
          rw [State.InBody, State.InBody, same]
        simp only [body]
        rcases careful.success () rfl label member with known | own | ⟨site, found, owns⟩
        · obtain ⟨site, owns, read, place⟩ := tidy.labels label known
          exact ⟨site, owns, Nat.le_succ_of_le read, place.imp_left (List.mem_append_left _)⟩
        · cases own
        · exact ⟨site, owns, places site found⟩

/-! ### Reading -/

theorem read_eq (r : Reader) (raw : Text) :
    r.read raw =
      if (stripComment raw).fields.head? = some (Text.ofString ".macro") then
        (r.advance (stripComment raw)).beginMacro (stripComment raw).fields
      else if (stripComment raw).fields.head? = some (Text.ofString ".endm") then
        (r.advance (stripComment raw)).endMacro
      else
        match r.openMacro with
        | some name => ((r.advance (stripComment raw)).extendMacro name (stripComment raw), none)
        | none => (r.advance (stripComment raw)).assembleCurrent :=
  rfl

/-- Reading one more line keeps the invariant, or is refused for another cause than a label that is
defined twice. -/
theorem exists_keeps_read (tidy : r.Tidy body sites) {raw : Text} {rest : List Text}
    (locals : OnlyLocalsFrom body (raw :: rest))
    (nodup : (sites ++ localSites (r.readCalls raw).tail).Nodup) :
    ∃ next, OnlyLocalsFrom next rest ∧
      Keeps (r.read raw) next (sites ++ localSites (r.readCalls raw).tail) := by
  simp only [OnlyLocalsFrom] at locals
  simp only [readCalls] at nodup ⊢
  rw [read_eq]
  by_cases begins : (stripComment raw).fields.head? = some (Text.ofString ".macro")
  · simp only [if_pos begins] at locals ⊢
    refine ⟨some [], locals.2, ?_⟩
    simpa [localSites] using keeps_beginMacro tidy (stripComment raw) locals.1
  · simp only [if_neg begins] at locals nodup ⊢
    by_cases ends : (stripComment raw).fields.head? = some (Text.ofString ".endm")
    · simp only [if_pos ends] at locals ⊢
      refine ⟨none, locals, ?_⟩
      simpa [localSites] using keeps_endMacro tidy (stripComment raw)
    · simp only [if_neg ends] at locals nodup ⊢
      cases body with
      | none =>
        have closed : r.openMacro = none := tidy.opened
        simp only [closed] at nodup ⊢
        exact ⟨none, locals.2, keeps_assembleCurrent tidy locals.1 rfl nodup⟩
      | some names =>
        obtain ⟨new, defines, distinct, others⟩ := locals
        obtain ⟨name, _, isOpen, -⟩ := tidy.opened
        simp only [isOpen]
        refine ⟨some (names ++ new), others, ?_⟩
        simpa [localSites] using Keeps.ok (keeps_extendMacro tidy defines distinct isOpen)

/-- Reading lines is not refused for a label that is defined twice. -/
theorem cause_readAll {lines : List Text} (tidy : r.Tidy body sites)
    (locals : OnlyLocalsFrom body lines)
    (nodup : (sites ++ localSites (r.nestedCalls lines)).Nodup) {next : Reader} {problem : Problem}
    (h : r.readAll lines = (next, some problem)) : problem.cause ≠ .labelDuplicate := by
  induction lines generalizing r body sites with
  | nil => cases h
  | cons raw rest ih =>
    rw [nestedCalls, localSites_append, ← List.append_assoc] at nodup
    obtain ⟨after, localsRest, keeps⟩ :=
      exists_keeps_read tidy locals (List.nodup_append.mp nodup).1
    rw [readAll] at h
    cases result : r.read raw with
    | mk following outcome =>
      rw [result] at h keeps nodup
      cases outcome with
      | none => exact ih (keeps.success rfl) localsRest nodup h
      | some other =>
        cases h
        exact keeps.failure problem rfl

/-! ### The end of a source text -/

omit [Interpreter] in
theorem cause_linkAll {s : State} {statements : List Statement} {e : SyntaxError}
    (h : s.linkAll statements = .error e) : e.problem.cause ≠ .labelDuplicate := by
  induction statements with
  | nil => cases h
  | cons statement rest ih =>
    rw [State.linkAll] at h
    cases first : s.link statement with
    | error other =>
      simp only [first, bind, Except.bind] at h
      cases h
      unfold State.link at first
      repeat' split at first
      all_goals cases first
      simp [Problem.cause]
    | ok linked =>
      cases others : s.linkAll rest with
      | error other =>
        simp only [first, others, bind, Except.bind] at h
        cases h
        exact ih others
      | ok list =>
        simp only [first, others, bind, Except.bind] at h
        cases h

omit [Interpreter] in
theorem cause_finish {overlong : Bool} {e : SyntaxError} (h : r.finish overlong = .error e) :
    e.problem.cause ≠ .labelDuplicate := by
  unfold finish at h
  split at h
  · cases h
    simp [failure, Problem.cause]
  · split at h
    · cases h
      simp [failure, Problem.cause]
    · split at h
      · cases h
        simp [Problem.cause]
      · cases linked : r.state.linkAll r.state.statements.toList with
        | error other =>
          simp only [linked, bind, Except.bind] at h
          cases h
          exact cause_linkAll linked
        | ok statements =>
          simp only [linked, bind, Except.bind] at h
          cases h

end Reader

/-! ### Checking that labels are local -/

/-- Whether a text has no colon, and nothing that is replaced in a line. -/
def isColonless (t : Text) : Bool :=
  !t.contains (.scalar '\'') && !t.contains (.scalar '$') && !t.contains (.scalar ':')

theorem isColonless_iff (t : Text) :
    isColonless t = true ↔ .scalar '\'' ∉ t ∧ .scalar '$' ∉ t ∧ .scalar ':' ∉ t := by
  simp [isColonless, and_assoc]

variable [Interpreter]

theorem definesNone_of_isColonless {line : Text} (h : isColonless line = true) :
    DefinesNone line := by
  obtain ⟨quote, dollar, colon⟩ := (isColonless_iff line).mp h
  intro equates replaced result name rest taken
  rw [Core.replaceCharacters_eq_self quote,
    Core.replaceExpressions_eq_self equates dollar] at result
  cases result
  obtain ⟨gap, behind, -, text⟩ := exists_of_takeLabel? taken
  have member : .scalar ':' ∈ Text.trim line := by simp [text]
  exact absurd (Text.mem_of_mem_trim member) colon

theorem definesLocals_of_isColonless {line : Text} (h : isColonless line = true) :
    DefinesLocals line [] := by
  obtain ⟨quote, dollar, colon⟩ := (isColonless_iff line).mp h
  refine .none fun site plain => definesNone_of_isColonless ((isColonless_iff _).mpr ?_)
  have word : ∀ g ∈ site.mark, Core.inWord g = true := fun g member =>
    Core.inWord_of_continuesIdentifier (CallSite.continuesIdentifier_of_mem_mark plain g member)
  have absent : ∀ g : Glyph, Core.inWord g = false → g ∉ line → g ∉ localise site.mark line := by
    intro g special outside member
    rcases mem_localise member with inMark | inLine
    · exact Core.ne_of_inWord (word g inMark) special rfl
    · exact outside inLine
  exact ⟨absent _ (by decide) quote, absent _ (by decide) dollar, absent _ (by decide) colon⟩

/-- The local label of a line of a macro body, if the line has one at most and is else colonless. -/
def localNames? (line : Text) : Option (List Text) :=
  if isColonless line then some []
  else
    match line with
    | .scalar '@' :: rest =>
      match rest.dropWhile isAlphanumeric with
      | .scalar ':' :: behind =>
        if isPlainName (rest.takeWhile isAlphanumeric) && isColonless behind then
          some [rest.takeWhile isAlphanumeric]
        else none
      | _ => none
    | _ => none

theorem definesLocals_of_localNames? {line : Text} {names : List Text}
    (h : localNames? line = some names) : DefinesLocals line names := by
  unfold localNames? at h
  split at h
  · cases h
    exact definesLocals_of_isColonless (by assumption)
  · split at h
    · rename_i rest _
      split at h
      · rename_i behind found
        split at h
        · rename_i valid
          rw [Bool.and_eq_true] at valid
          cases h
          have written := DefinesLocals.label ⟨[], by simp⟩ valid.1
            (definesLocals_of_isColonless valid.2)
          rw [List.nil_append, ← found, List.takeWhile_append_dropWhile] at written
          exact written
        · cases h
      · cases h
    · cases h

/-- Whether all labels of source lines are local, for lines of macro bodies with one label at
most. -/
def checkLocalsFrom : Option (List Text) → List Text → Bool
  | _, [] => true
  | body, raw :: rest =>
    let line := stripComment raw
    let words := Text.fields line
    if words.head? = some (Text.ofString ".macro") then
      words[1]?.all isPlainName && checkLocalsFrom (some []) rest
    else if words.head? = some (Text.ofString ".endm") then checkLocalsFrom none rest
    else
      match body with
      | none => isColonless line && checkLocalsFrom none rest
      | some names =>
        match localNames? line with
        | some new => decide (names ++ new).Nodup && checkLocalsFrom (some (names ++ new)) rest
        | none => false

theorem onlyLocalsFrom_of_check {body : Option (List Text)} {lines : List Text}
    (h : checkLocalsFrom body lines = true) : OnlyLocalsFrom body lines := by
  induction lines generalizing body with
  | nil => trivial
  | cons raw rest ih =>
    simp only [checkLocalsFrom] at h
    simp only [OnlyLocalsFrom]
    split
    · rename_i begins
      simp only [if_pos begins, Bool.and_eq_true] at h
      refine ⟨fun name member => ?_, ih h.2⟩
      simpa [Option.mem_def.mp member] using h.1
    · rename_i noBegin
      simp only [if_neg noBegin] at h
      split
      · rename_i ends
        simp only [if_pos ends] at h
        exact ih h
      · rename_i noEnd
        simp only [if_neg noEnd] at h
        cases body with
        | none =>
          simp only [Bool.and_eq_true] at h
          exact ⟨definesNone_of_isColonless h.1, ih h.2⟩
        | some names =>
          cases found : localNames? (stripComment raw) with
          | none => simp [found] at h
          | some new =>
            simp only [found, Bool.and_eq_true, decide_eq_true_eq] at h
            exact ⟨new, definesLocals_of_localNames? found, h.1, ih h.2⟩

end Assembly

open Assembly

/-- The calls in a source text that macro bodies make. -/
def Assembler.nestedCalls [Interpreter] (a : Assembler) (source : Text) : List MacroCall :=
  a.reader.nestedCalls (Lines.ofText source).lines

/-- **Local labels are unique, unless a call from a macro body is expanded twice.** Let all labels
of a source text be local. However often macros are called outside of macro bodies, and at whatever
depth they are called from the bodies of others, the source text is not refused for a label that is
defined twice, as long as no line of a macro body calls the same macro with local labels twice. -/
theorem Assembler.parse_ne_labelDuplicate [Interpreter] (a : Assembler) (source : Text)
    (locals : OnlyLocals source) (once : (localSites (a.nestedCalls source)).Nodup)
    (e : SyntaxError) (refused : (a.parse source).2 = .error e) :
    e.problem.cause ≠ .labelDuplicate := by
  have start : a.reader.Tidy none [] :=
    ⟨rfl, fun _ _ h => (by cases h), fun _ _ h => (by cases h), fun _ h => (by cases h)⟩
  unfold parse at refused
  dsimp only at refused
  split at refused
  · exact Reader.cause_finish refused
  · rename_i r problem result
    cases refused
    exact Reader.cause_readAll start locals once result

/-! ### Loops inside loops -/

attribute [local instance] Assembly.Expression.interpreter

/-- A source text with a local label in six expansions, two of them inside others. It refers to the
label from outside of the macro, where it is not defined. -/
def waitLines : List Text :=
  [".macro WAIT N", "PUSH N", "@loop: DEC", "JNZ @loop", ".endm",
   ".macro PAIR", "WAIT 1", "WAIT 2", ".endm",
   "WAIT 3", "WAIT 4", "PAIR", "WAIT 5", "WAIT 6", "JMP loop"]

theorem Assembler.parse_ne_labelDuplicate_waiting :
    OnlyLocals (Text.join "\n" waitLines) ∧
      localSites (Assembler.nestedCalls {} (Text.join "\n" waitLines)) =
        [⟨"WAIT", 7⟩, ⟨"WAIT", 8⟩] ∧
      ∃ e, (Assembler.parse {} (Text.join "\n" waitLines)).2 = .error e ∧
        e.problem.cause ≠ .labelDuplicate := by
  have locals : OnlyLocals (Text.join "\n" waitLines) :=
    onlyLocalsFrom_of_check (by decide +kernel)
  have nested : localSites (Assembler.nestedCalls {} (Text.join "\n" waitLines)) =
      [⟨"WAIT", 7⟩, ⟨"WAIT", 8⟩] := by
    decide +kernel
  have refused : (Assembler.parse {} (Text.join "\n" waitLines)).2 =
      .error ⟨15, "JMP loop", .plain "loop" (.labelMissing "loop")⟩ := by
    decide +kernel
  refine ⟨locals, nested, _, refused, ?_⟩
  exact parse_ne_labelDuplicate {} _ locals (by rw [nested]; decide) _ refused

/-- A source text whose only label is local. The macro that defines it is called from the body of
another, which is called twice. -/
def nestedLines : List Text :=
  [".macro INNER", "@l: NOP", ".endm", ".macro OUTER", "INNER", ".endm", "OUTER", "OUTER"]

/-- Both expansions give the label the same mark, and the second is refused. -/
theorem Assembler.parse_eq_labelDuplicate_nested :
    OnlyLocals (Text.join "\n" nestedLines) ∧
      (Assembler.parse {} (Text.join "\n" nestedLines)).2 =
        .error ⟨8, "OUTER", .expansion "OUTER" 5 "INNER"
          (.expansion "INNER" 2 "INNER_5_l: NOP" (.plain "INNER_5_l" .labelDuplicate))⟩ :=
  ⟨onlyLocalsFrom_of_check (by decide +kernel), by decide +kernel⟩

end StackMachine
