import StackMachine.Assembly.Expression.Eval
import StackMachine.Proofs.Assembly.CoreReading
import StackMachine.Proofs.Assembly.MacroUses

/-!
# Inlining macro calls

A call of a macro assembles the body with the parameters as equates for the arguments. For a
body of plain instructions this is the same as to write the body in the place of the call,
with the arguments in the place of the parameters: although arguments are replaced by equates
before the parameters are bound, although parameters hide the equates of the same names, and
although all lines behind the call are counted differently.

A colon in the first word of a line ends a label, which comes before everything else, unless the
line begins with it. So the name of the macro must not have a colon behind other glyphs that are
none.

## Main definitions

* `Assembly.Shadowed`: the tables inside of a call and the tables of the inlined lines.
* `Assembly.BodyLine.Inert`: what is asked of a line of the body at the call.

## Main results

* `Assembly.Shadowed.agree_body`: the body inside of a call and the inlined lines are assembled
  alike.
* `Assembly.MacroUse.agree_read_call`: a call and the inlined lines are read alike.
* `Assembly.MacroUse.sameMeaning_inlined`: inlining a call keeps the meaning of a source text.
* `Assembly.MacroUse.not_sameMeaning_colon`: a name with a colon for which it does not.
-/

namespace StackMachine

namespace Assembly

open State

/-! ### Lines that are only words -/

theorem not_mem_of_fields {line : Text} {g : Glyph} (solid : g.isBlank = false)
    (outside : ∀ w ∈ line.fields, g ∉ w) : g ∉ line := by
  intro member
  obtain ⟨w, word, inside⟩ := Text.exists_mem_fields member solid
  exact outside w word inside

theorem takeLabel?_eq_none_of_fields {line : Text}
    (colonless : ∀ w ∈ line.fields, .scalar ':' ∉ w) : takeLabel? line = none := by
  refine Option.eq_none_iff_forall_ne_some.mpr fun ⟨name, rest⟩ taken => ?_
  obtain ⟨gap, behind, -, text⟩ := exists_of_takeLabel? taken
  exact not_mem_of_fields (by decide) colonless (by simp [text])

/-- A colon at the front of a line ends no label. -/
theorem takeLabel?_colon (behind : Text) : takeLabel? (.scalar ':' :: behind) = none :=
  rfl

/-- Of a line without a label and without replacements only the words count. -/
theorem assembleLineWith_of_unlabelled [Interpreter] (expand : MacroCall → State → Outcome Unit)
    (lineNo : Nat) {line : Text} (quote : .scalar '\'' ∉ line) (dollar : .scalar '$' ∉ line)
    (unlabelled : takeLabel? line = none) (s : State) :
    assembleLineWith expand lineNo line s =
      assembleWords expand lineNo line.fields (s.atLine lineNo) := by
  have kept := defineLabels_of_unlabelled (s.atLine lineNo) lineNo unlabelled
  simp only [assembleLineWith, replaceExpressions_of_not_mem _ quote dollar, kept]

section Words

variable (expand : MacroCall → State → Outcome Unit) (lineNo : Nat) {s : State} {line name : Text}
  {others : List Text} (words : line.fields = name :: others)
  (plain : ∀ w ∈ name :: others, Plain w) (unlabelled : takeLabel? line = none)
  (directive : name ≠ Text.ofString ".equ")
  (equate : (s.atLine lineNo).equates.find? name = none)

include words plain unlabelled directive equate

variable [Interpreter]

theorem assembleLineWith_eq :
    assembleLineWith expand lineNo line s =
      match s.macros.find? name with
      | some definition =>
        expand ⟨lineNo, name, definition, replaceEquates (s.atLine lineNo).equates others⟩
          (s.atLine lineNo)
      | none =>
        (s.atLine lineNo).emit lineNo
          (name :: replaceEquates (s.atLine lineNo).equates others) := by
  have other : (name :: others).head? ≠ some (Text.ofString ".equ") := by simpa using directive
  have replaced : replaceEquates (s.atLine lineNo).equates (name :: others) =
      name :: replaceEquates (s.atLine lineNo).equates others := by
    simp [replaceEquates, equate]
  rw [← words] at plain
  have quote : .scalar '\'' ∉ line :=
    not_mem_of_fields (by decide) fun w member => (plain w member).glyphs _ (by decide)
  have dollar : .scalar '$' ∉ line :=
    not_mem_of_fields (by decide) fun w member => (plain w member).glyphs _ (by decide)
  rw [assembleLineWith_of_unlabelled expand lineNo quote dollar unlabelled, words, assembleWords,
    if_neg other]
  simp only [replaced]
  rfl

/-- A line without a label whose first word is neither a directive nor an equate nor a macro is an
instruction. -/
theorem assembleLineWith_of_words (free : s.macros.find? name = none) :
    assembleLineWith expand lineNo line s = (s.atLine lineNo).emit lineNo
      (name :: replaceEquates (s.atLine lineNo).equates others) := by
  rw [assembleLineWith_eq expand lineNo words plain unlabelled directive equate, free]

/-- A line without a label whose first word is a macro is a call. -/
theorem assembleLineWith_of_call {definition : MacroDef}
    (found : s.macros.find? name = some definition) :
    assembleLineWith expand lineNo line s =
      expand ⟨lineNo, name, definition, replaceEquates (s.atLine lineNo).equates others⟩
        (s.atLine lineNo) := by
  rw [assembleLineWith_eq expand lineNo words plain unlabelled directive equate, found]

end Words

/-! ### Inside of the call -/

/-- The tables inside of a call whose parameters are bound to the arguments, and the tables of the
inlined lines; `outer` are the tables at the call. -/
structure Shadowed (outer : State) (params arguments : List Text) (s t : State) : Prop where
  alike : State.Alike { s with equates := outer.equates } t
  macros : s.macros = outer.macros
  equates : ∀ name, name ≠ lineName →
    s.equates.find? name =
      (Dictionary.findIn? name (params.zip (replaceEquates outer.equates arguments))).or
        (outer.equates.find? name)

/-- What is asked of a line of the body, with the tables at the call. -/
structure BodyLine.Inert (l : BodyLine) (outer : State) (params : List Text) : Prop where
  plain : ∀ word ∈ l.words, Plain word
  colonless : ∀ word ∈ l.words, .scalar ':' ∉ word
  valid : (Opcode.ofMnemonic? l.mnemonic).isSome = true
  unbound : l.mnemonic ∉ params
  noEquate : outer.equates.find? l.mnemonic = none
  noMacro : outer.macros.find? l.mnemonic = none

namespace Shadowed

variable {outer s t : State} {params arguments : List Text} {l : BodyLine}

theorem append (shadowed : Shadowed outer params arguments s t) {a b : Statement}
    (same : a.unnumbered = b.unnumbered) :
    Shadowed outer params arguments (s.append a) (t.append b) where
  alike := shadowed.alike.append same
  macros := shadowed.macros
  equates := shadowed.equates

theorem atLine (shadowed : Shadowed outer params arguments s t) (m n : Nat) :
    Shadowed outer params arguments (s.atLine m) (t.atLine n) where
  alike := shadowed.alike.atLine_right n
  macros := shadowed.macros
  equates := fun name ne => by
    rw [State.atLine, Dictionary.find?_set_of_ne _ _ (Ne.symm ne), shadowed.equates name ne]

/-- No equate and no macro stands for a mnemonic, inside of the call or where it is inlined. -/
theorem free (shadowed : Shadowed outer params arguments s t) (inert : l.Inert outer params) :
    (s.equates.find? l.mnemonic = none ∧ s.macros.find? l.mnemonic = none) ∧
      t.equates.find? l.mnemonic = none ∧ t.macros.find? l.mnemonic = none := by
  have ne : l.mnemonic ≠ lineName := (inert.plain _ List.mem_cons_self).ne_lineName
  have unbound : Dictionary.findIn? l.mnemonic
      (params.zip (replaceEquates outer.equates arguments)) = none := by
    refine Dictionary.findIn?_eq_none fun member => inert.unbound ?_
    obtain ⟨pair, inside, same⟩ := List.mem_map.mp member
    exact same ▸ (List.of_mem_zip inside).1
  have noMacro : s.macros.find? l.mnemonic = none := by rw [shadowed.macros, inert.noMacro]
  refine ⟨⟨?_, noMacro⟩, (shadowed.alike.equates _ ne).symm.trans inert.noEquate, ?_⟩
  · rw [shadowed.equates _ ne, unbound, inert.noEquate]
    rfl
  · rw [← shadowed.alike.macros]
    exact noMacro

/-- A word inside of the call is replaced by what its inlined word is replaced by. -/
theorem replaced (shadowed : Shadowed outer params arguments s t)
    (plain : ∀ w ∈ arguments, Plain w) {word : Text} (ne : word ≠ lineName) :
    (s.equates.find? word).getD word =
      (t.equates.find? ((Dictionary.findIn? word (params.zip arguments)).getD word)).getD
        ((Dictionary.findIn? word (params.zip arguments)).getD word) := by
  rw [shadowed.equates word ne, replaceEquates, Dictionary.findIn?_zip_map]
  cases found : Dictionary.findIn? word (params.zip arguments) with
  | none =>
    have outside := shadowed.alike.equates word ne
    simpa using congrArg (Option.getD · word) outside
  | some argument =>
    -- the argument was replaced at the call; its inlined word is replaced now, by the same equate
    have member := (List.of_mem_zip (Dictionary.mem_of_findIn? found)).2
    have outside := shadowed.alike.equates argument (plain argument member).ne_lineName
    simpa using congrArg (Option.getD · argument) outside

theorem replaceEquates_operand (shadowed : Shadowed outer params arguments s t)
    (plain : ∀ w ∈ arguments, Plain w) (inert : l.Inert outer params) :
    replaceEquates s.equates l.operand.toList =
      replaceEquates t.equates (l.inlined (params.zip arguments)).operand.toList := by
  cases written : l.operand with
  | none => simp [BodyLine.inlined, written, replaceEquates]
  | some word =>
    have inside : word ∈ l.words := List.mem_cons_of_mem _ (by simp [written])
    have same := shadowed.replaced plain (inert.plain word inside).ne_lineName
    simpa [BodyLine.inlined, written, replaceEquates] using same

/-- Behind the call the equates are those at the call. -/
theorem agree_expandBody {assemble : LineAssembler} {c : MacroCall} {outcome : Outcome Unit}
    (body : Agree (Shadowed outer params arguments)
      (assembleBody assemble c c.definition.lineNo c.definition.body
        { outer with equates := outer.equates.setAll (c.definition.params.zip c.arguments) })
      outcome) :
    Agree Alike (expandBody assemble c outer) outcome := by
  rw [expandBody]
  generalize assembleBody _ _ _ _ _ = x at body ⊢
  cases body with
  | ok _ related => exact .ok () related.alike
  | error => exact .error

end Shadowed

section Inlined

variable {outer s t : State} {params arguments : List Text}
  (plain : ∀ w ∈ arguments, Plain w) (colonless : ∀ w ∈ arguments, .scalar ':' ∉ w)

include plain colonless

/-- The words of an inlined line are words of the line and arguments. -/
theorem BodyLine.Inert.inlined {l : BodyLine} (inert : l.Inert outer params) :
    ∀ w ∈ (l.inlined (params.zip arguments)).words, Plain w ∧ .scalar ':' ∉ w := by
  intro w member
  rcases List.mem_cons.mp member with rfl | operand
  · exact ⟨inert.plain _ List.mem_cons_self, inert.colonless _ List.mem_cons_self⟩
  · simp only [BodyLine.inlined, Option.mem_toList, Option.map_eq_some_iff] at operand
    obtain ⟨word, written, rfl⟩ := operand
    have inside : word ∈ l.words := List.mem_cons_of_mem _ (by simp [written])
    cases found : Dictionary.findIn? word (params.zip arguments) with
    | none => exact ⟨inert.plain word inside, inert.colonless word inside⟩
    | some argument =>
      have bound := (List.of_mem_zip (Dictionary.mem_of_findIn? found)).2
      exact ⟨plain argument bound, colonless argument bound⟩

variable [Interpreter]

/-- A line of the body inside of the call and the inlined line are assembled alike. -/
theorem Shadowed.agree_line (shadowed : Shadowed outer params arguments s t) {l : BodyLine}
    (inert : l.Inert outer params) {line inlined : Text} (words : line.fields = l.words)
    (wordsInlined : inlined.fields = (l.inlined (params.zip arguments)).words)
    (expand expand' : MacroCall → State → Outcome Unit) (m n : Nat) :
    Agree (Shadowed outer params arguments)
      (assembleLineWith expand m line s) (assembleLineWith expand' n inlined t) := by
  have now := shadowed.atLine m n
  have plainInlined := inert.inlined plain colonless
  obtain ⟨⟨equate, noMacro⟩, equateInlined, noMacroInlined⟩ := now.free inert
  have directive := ne_directive_of_valid inert.valid ".equ" (by simp)
  have first : assembleLineWith expand m line s = (s.atLine m).emit m
      (l.mnemonic :: replaceEquates (s.atLine m).equates l.operand.toList) :=
    assembleLineWith_of_words expand m words inert.plain
      (takeLabel?_eq_none_of_fields (words ▸ inert.colonless)) directive equate noMacro
  have second : assembleLineWith expand' n inlined t = (t.atLine n).emit n
      (l.mnemonic :: replaceEquates (t.atLine n).equates
        (l.inlined (params.zip arguments)).operand.toList) :=
    assembleLineWith_of_words expand' n wordsInlined (fun w member => (plainInlined w member).1)
      (takeLabel?_eq_none_of_fields
        (wordsInlined ▸ fun w member => (plainInlined w member).2))
      directive equateInlined noMacroInlined
  have operands : ∀ w ∈ (l.inlined (params.zip arguments)).operand.toList, Plain w :=
    fun w member => (plainInlined w (List.mem_cons_of_mem _ member)).1
  rw [first, second, now.replaceEquates_operand plain inert]
  have same : (s.atLine m).address = (t.atLine n).address := now.alike.address
  refine agree_emit same now (fun _ _ => now.append) (fun w member => ?_) m n
  rcases List.mem_cons.mp member with rfl | operand
  · exact inert.plain _ List.mem_cons_self
  · rw [← now.alike.replaceEquates operands] at operand
    exact now.alike.plain.replaceEquates operands w operand

/-- So is a line of the body and the inlined line that a reader meets. -/
theorem Shadowed.agree_read {q : Reader} (shadowed : Shadowed outer params arguments s q.state)
    (closed : q.openMacro = none) {l : BodyLine} (inert : l.Inert outer params) {line raw : Text}
    (words : line.fields = l.words)
    (wordsInlined : sourceWords raw = (l.inlined (params.zip arguments)).words)
    (depth : Nat) (active : List Text) (m : Nat) :
    Agree (Shadowed outer params arguments) (assembleLine depth active m line s)
      (Reader.outcome (q.read raw)) := by
  have undirected := undirected_of_words wordsInlined (ne_directive_of_valid inert.valid)
  obtain ⟨expand, lineEq⟩ := Core.exists_assembleLine depth active
  obtain ⟨expand', rawEq⟩ := Core.exists_assembleLine q.state.macros.entries.length []
  rw [Reader.read_of_closed closed undirected, Reader.outcome_assembleCurrent]
  simp only [Reader.advance, lineEq, rawEq]
  exact shadowed.agree_line plain colonless inert words wordsInlined expand expand' m _

/-- The body inside of the call and the inlined lines are assembled alike. -/
theorem Shadowed.agree_body {q : Reader} (shadowed : Shadowed outer params arguments s q.state)
    (closed : q.openMacro = none) {body : List BodyLine} (inert : ∀ l ∈ body, l.Inert outer params)
    {lines raws : List Text} (words : lines.map Text.fields = body.map BodyLine.words)
    (wordsInlined : raws.map sourceWords =
      body.map fun l => (l.inlined (params.zip arguments)).words)
    (unmarked : ∀ line ∈ lines, .scalar '@' ∉ line) (depth : Nat) (active : List Text)
    (c : MacroCall) (m : Nat) :
    Agree (Shadowed outer params arguments)
      (assembleBody (assembleLine depth active) c m lines s) (Reader.outcome (q.readAll raws)) := by
  induction body generalizing s q lines raws m with
  | nil =>
    obtain rfl : lines = [] := by simpa using words
    obtain rfl : raws = [] := by simpa using wordsInlined
    exact .ok () shadowed
  | cons l body ih =>
    obtain ⟨line, lines, rfl, first, words⟩ := List.map_eq_cons_iff.mp words
    obtain ⟨raw, raws, rfl, firstInlined, wordsInlined⟩ := List.map_eq_cons_iff.mp wordsInlined
    have inertFirst := inert l List.mem_cons_self
    have step := shadowed.agree_read plain colonless closed inertFirst first firstInlined depth
      active m
    have undirected := undirected_of_words firstInlined (ne_directive_of_valid inertFirst.valid)
    have next := (Reader.macros_read closed undirected.definesMacro).1
    rw [assembleBody, localise_eq_self _ (unmarked line List.mem_cons_self), Reader.readAll]
    generalize assembleLine depth active m line s = x at step ⊢
    generalize q.read raw = y at step next ⊢
    obtain ⟨following, _ | problem⟩ := y
    · change Agree _ x (following.state, .ok ()) at step
      cases step with
      | ok _ related =>
        exact ih related next (fun k hk => inert k (List.mem_cons_of_mem l hk)) words wordsInlined
          (fun k hk => unmarked k (List.mem_cons_of_mem line hk)) (m + 1)
    · change Agree _ x (following.state, .error problem) at step
      cases step
      exact .error

end Inlined

/-! ### The call -/

namespace MacroUse

variable {u : MacroUse} {r : Reader}

section Calls

variable [Interpreter]

theorem Admissible.inert (admissible : u.Admissible) (ready : u.Ready r)
    (same : r.state.equates = u.equates) (plain : ∀ raw ∈ u.bodyLines, Plain raw) (lineNo : Nat) :
    ∀ l ∈ u.body, l.Inert (r.state.atLine lineNo) u.params := by
  intro l member
  obtain ⟨unbound, equate, other⟩ := admissible.unbound l member
  have written : l.words ∈ u.bodyLines.map sourceWords := by
    rw [u.holds]
    exact List.mem_map_of_mem member
  obtain ⟨raw, line, words⟩ := List.mem_map.mp written
  have plainWords : ∀ word ∈ l.words, Plain word := by
    rw [← words]
    exact (plain raw line).stripComment.fields
  have ne : l.mnemonic ≠ lineName := (plainWords _ List.mem_cons_self).ne_lineName
  refine ⟨plainWords, fun word inside => ?_, admissible.valid l member, unbound, ?_, ?_⟩
  · refine admissible.colonless word (List.mem_append_left _ ?_)
    exact List.mem_flatMap.mpr ⟨l, member, inside⟩
  · rw [State.atLine, Dictionary.find?_set_of_ne _ _ (Ne.symm ne), same, equate]
  · exact ready.defines.alone _ other

omit [Interpreter] in
/-- Inside of the call the parameters hide the equates of the same names. -/
theorem Ready.shadowed (ready : u.Ready r) (lineNo : Nat) :
    Shadowed (r.state.atLine lineNo) u.params u.arguments
      { r.state.atLine lineNo with
        equates := (r.state.atLine lineNo).equates.setAll
          (u.params.zip (replaceEquates (r.state.atLine lineNo).equates u.arguments)) }
      r.state where
  alike := ready.plain.alike.atLine_left lineNo
  macros := rfl
  equates := fun name _ => by
    have length : u.params.length ≤
        (replaceEquates (r.state.atLine lineNo).equates u.arguments).length := by
      simp [replaceEquates, u.arity]
    refine Dictionary.find?_setAll_of_nodup _ name ?_
    rw [List.map_fst_zip length]
    exact u.distinct

/-- The call that a reader meets, if the body of the macro began on line `first`. -/
def callAt (u : MacroUse) (r : Reader) (first : Nat) : MacroCall where
  lineNo := r.lineNo + 1
  name := u.name
  definition := { lineNo := first, params := u.params, body := u.bodyLines.map stripComment }
  arguments := replaceEquates (r.state.atLine (r.lineNo + 1)).equates u.arguments

/-- No label stands at the front of the call, unless the name has a colon that it does not begin
with. -/
theorem takeLabel?_call (admissible : u.Admissible)
    (colon : .scalar ':' ∈ u.name → u.name.head? = some (.scalar ':')) :
    takeLabel? (stripComment u.call) = none := by
  have words : (stripComment u.call).fields = u.name :: u.arguments := u.calls
  by_cases inside : .scalar ':' ∈ u.name
  · have begins : (stripComment u.call).head? = some (.scalar ':') :=
      (Text.head?_of_fields_trim words).trans (colon inside)
    obtain ⟨behind, line⟩ := List.head?_eq_some_iff.mp begins
    rw [line]
    exact takeLabel?_colon behind
  · refine takeLabel?_eq_none_of_fields ?_
    rw [words, List.forall_mem_cons]
    exact ⟨inside, fun w member => admissible.colonless w (List.mem_append_right _ member)⟩

section Call

variable (admissible : u.Admissible) (ready : u.Ready r) (same : r.state.equates = u.equates)

include admissible ready same

/-- Where no label stands at the front of the call, reading it expands the body. -/
theorem exists_outcome_read_call (unlabelled : takeLabel? (stripComment u.call) = none)
    (plain : ∀ w ∈ u.name :: u.arguments, Plain w) :
    ∃ depth first, Reader.outcome (r.read u.call) =
      expandBody (assembleLine depth [u.name]) (u.callAt r first)
        (r.state.atLine (r.lineNo + 1)) := by
  have words : (stripComment u.call).fields = u.name :: u.arguments := u.calls
  have directive := admissible.noDirective
  have undirected := undirected_of_words u.calls directive
  obtain ⟨first, found⟩ := ready.defines.found
  obtain ⟨depth, isDepth⟩ : ∃ depth, r.state.macros.entries.length = depth + 1 := by
    refine Nat.exists_eq_succ_of_ne_zero fun none => ?_
    rw [Dictionary.find?, List.length_eq_zero_iff.mp none] at found
    cases found
  have ne : u.name ≠ lineName := (plain _ List.mem_cons_self).ne_lineName
  have equate : (r.state.atLine (r.lineNo + 1)).equates.find? u.name = none := by
    rw [State.atLine, Dictionary.find?_set_of_ne _ _ (Ne.symm ne), same, admissible.noEquate]
  refine ⟨depth, first, ?_⟩
  rw [Reader.read_of_closed ready.closed undirected, Reader.outcome_assembleCurrent]
  simp only [Reader.advance, isDepth, assembleLine]
  rw [assembleLineWith_of_call _ _ words plain unlabelled (directive ".equ" (by simp)) equate
    found]
  have arity : (u.callAt r first).arguments.length = u.params.length := by
    simp [callAt, replaceEquates, u.arity]
  exact if_neg (not_not.mpr arity)

/-- A call and the inlined lines are assembled alike. -/
theorem agree_read_call (unlabelled : takeLabel? (stripComment u.call) = none)
    (plainCall : Plain u.call) (plainBody : ∀ raw ∈ u.bodyLines, Plain raw) :
    Agree Alike (Reader.outcome (r.read u.call)) (Reader.outcome (r.readAll u.inlinedLines)) := by
  have plain : ∀ w ∈ u.name :: u.arguments, Plain w := by
    rw [← u.calls]
    exact plainCall.stripComment.fields
  have colonless : ∀ w ∈ u.arguments, .scalar ':' ∉ w :=
    fun w member => admissible.colonless w (List.mem_append_right _ member)
  have written : (u.bodyLines.map stripComment).map Text.fields = u.body.map BodyLine.words := by
    rw [List.map_map]
    exact u.holds
  have unmarked : ∀ line ∈ u.bodyLines.map stripComment, .scalar '@' ∉ line := by
    refine List.forall_mem_map.mpr fun raw member => ?_
    exact (plainBody raw member).stripComment.glyphs _ (by decide)
  obtain ⟨depth, first, read⟩ := exists_outcome_read_call admissible ready same unlabelled plain
  have body := (ready.shadowed (r.lineNo + 1)).agree_body
    (fun w member => plain w (List.mem_cons_of_mem _ member)) colonless ready.closed
    (admissible.inert ready same plainBody (r.lineNo + 1)) written u.inlines unmarked depth
    [u.name] (u.callAt r first) first
  rw [read]
  exact Shadowed.agree_expandBody body

end Call

/-! ### Whole source texts -/

/-- A reading that goes beyond the lines before the call ends outside of macro bodies. -/
theorem closed_reading (admissible : u.Admissible) (plain : ∀ raw ∈ u.before, Plain raw)
    {tail : List Text} (h : ∀ raw ∈ tail, definesMacro raw = false)
    (ended : (reading (u.before ++ tail)).2 = none) :
    (reading (u.before ++ tail)).1.openMacro = none := by
  cases first : reading u.before with
  | mk r problem =>
    cases problem with
    | some problem =>
      rw [reading, Reader.readAll_append, ← reading, first] at ended
      cases ended
    | none =>
      have ready := ready_before admissible plain (by rw [first])
      rw [first] at ready
      rw [reading, Reader.readAll_append_of_readAll first]
      exact (Reader.macros_readAll ready.closed h).1

/-- The call and the inlined lines define no macro. -/
theorem Admissible.definesNone_call (admissible : u.Admissible) :
    definesMacro u.call = false ∧ ∀ raw ∈ u.inlinedLines, definesMacro raw = false := by
  constructor
  · exact (undirected_of_words u.calls admissible.noDirective).definesMacro
  · intro raw member
    obtain ⟨l, inside, words⟩ := exists_mem_body u.inlines member
    have directive := ne_directive_of_valid (admissible.valid l inside)
    exact (undirected_of_words words directive).definesMacro

/-- The source text with the call and the one with the inlined lines are read alike. -/
theorem agree_reading (admissible : u.Admissible)
    (unlabelled : takeLabel? (stripComment u.call) = none) (plain : ∀ raw ∈ u.lines, Plain raw) :
    Agree Alike (Reader.outcome (reading u.lines)) (Reader.outcome (reading u.linesInlined)) := by
  simp only [lines, List.forall_mem_append, List.forall_mem_cons] at plain
  obtain ⟨plainBefore, plainCall, plainBack⟩ := plain
  obtain ⟨noneCall, noneInlined⟩ := admissible.definesNone_call
  obtain ⟨-, -, noneBack⟩ := admissible.definesNone
  rw [reading, reading, lines, linesInlined]
  cases first : (Assembler.reader {}).readAll u.before with
  | mk r problem =>
    cases problem with
    | some problem =>
      rw [Reader.readAll_append, Reader.readAll_append, first]
      exact .error
    | none =>
      have state : (reading u.before).1 = r := congrArg Prod.fst first
      have ready := ready_before admissible plainBefore (congrArg Prod.snd first)
      rw [state] at ready
      have same : r.state.equates = u.equates := by rw [equates, state]
      have plainBody : ∀ raw ∈ u.bodyLines, Plain raw := by
        intro raw member
        exact plainBefore raw (by simp [before, member])
      rw [Reader.readAll_append_of_readAll first, Reader.readAll_append_of_readAll first,
        ← List.singleton_append]
      refine Reader.agree_readAll_append ?_ ?_ (Reader.macros_readAll ready.closed noneInlined).1
        plainBack noneBack
      · rw [Reader.readAll_singleton]
        exact agree_read_call admissible ready same unlabelled plainCall plainBody
      · rw [Reader.readAll_singleton]
        exact (Reader.macros_read ready.closed noneCall).1

/-- Inlining a call keeps the meaning of a source text: the body in the place of a call, with
arguments for parameters, is accepted exactly if the call is, and gives the same instruction words
and labels. The name of the macro has no colon, or it begins with one. -/
theorem sameMeaning_inlined (u : MacroUse) (admissible : u.Admissible)
    (colon : .scalar ':' ∈ u.name → u.name.head? = some (.scalar ':')) {source inlined : Text}
    (plain : Plain source) (hs : Lines.ofText source = ⟨u.lines, false⟩)
    (hi : Lines.ofText inlined = ⟨u.linesInlined, false⟩) : SameMeaning source inlined := by
  have plainLines : ∀ raw ∈ u.lines, Plain raw := by
    intro raw member
    refine plain.of_part (Lines.infix_of_mem_ofText ?_)
    rwa [hs]
  have plainBefore : ∀ raw ∈ u.before, Plain raw :=
    fun raw member => plainLines raw (List.mem_append_left _ member)
  obtain ⟨noneCall, noneInlined⟩ := admissible.definesNone_call
  obtain ⟨-, -, noneBack⟩ := admissible.definesNone
  refine sameMeaning_of_agree hs hi (agree_reading admissible (takeLabel?_call admissible colon)
    plainLines)
    (closed_reading admissible plainBefore ?_) (closed_reading admissible plainBefore ?_)
  · exact List.forall_mem_cons.mpr ⟨noneCall, noneBack⟩
  · exact List.forall_mem_append.mpr ⟨noneInlined, noneBack⟩

end Calls

/-- A source text whose macro hides an equate by a parameter and is called with this equate. -/
def pairSource : Text :=
  ".equ a 7\n.macro PAIR a b\nPUSH a\nPUSH b\n.endm\nl:\nPAIR 5 a\nJMP l"

/-- The same with the call inlined. -/
def pairInlined : Text :=
  ".equ a 7\n.macro PAIR a b\nPUSH a\nPUSH b\n.endm\nl:\nPUSH 5\nPUSH a\nJMP l"

attribute [local instance] Assembly.Expression.interpreter

/-- How the call is inlined. -/
def pairUse : MacroUse where
  name := "PAIR"
  params := ["a", "b"]
  body := [⟨"PUSH", some "a"⟩, ⟨"PUSH", some "b"⟩]
  arguments := ["5", "a"]
  front := [".equ a 7"]
  beginning := ".macro PAIR a b"
  bodyLines := ["PUSH a", "PUSH b"]
  ending := ".endm"
  middle := ["l:"]
  call := "PAIR 5 a"
  inlinedLines := ["PUSH 5", "PUSH a"]
  back := ["JMP l"]
  distinct := by decide
  arity := rfl
  begins := by decide +kernel
  holds := by decide +kernel
  ends := by decide +kernel
  calls := by decide +kernel
  inlines := by decide +kernel

theorem sameMeaning_inlined_pair :
    (pairUse.Admissible ∧ .scalar ':' ∉ pairUse.name ∧ Plain pairSource) ∧
      (∃ p, assemble pairSource = .ok p) ∧ SameMeaning pairSource pairInlined := by
  have admissible : pairUse.Admissible := by decide +kernel
  have colon : .scalar ':' ∉ pairUse.name := by decide +kernel
  have plain : Plain pairSource := by decide +kernel
  have accepted : (assemble pairSource).isOk = true := by decide +kernel
  have same : SameMeaning pairSource pairInlined :=
    pairUse.sameMeaning_inlined admissible (fun inside => absurd inside colon) plain
      (by decide +kernel) (by decide +kernel)
  refine ⟨⟨admissible, colon, plain⟩, ?_, same⟩
  cases result : assemble pairSource with
  | error e =>
    rw [result] at accepted
    cases accepted
  | ok p => exact ⟨p, rfl⟩

/-- A source text with a macro whose name ends with a colon. -/
def colonSource : Text :=
  ".macro a:\nNOP\n.endm\na:\nNOP"

/-- The same with the line that looks like a call inlined. -/
def colonInlined : Text :=
  ".macro a:\nNOP\n.endm\nNOP\nNOP"

/-- How the call would be inlined. -/
def colonUse : MacroUse where
  name := "a:"
  params := []
  body := [⟨"NOP", none⟩]
  arguments := []
  front := []
  beginning := ".macro a:"
  bodyLines := ["NOP"]
  ending := ".endm"
  middle := []
  call := "a:"
  inlinedLines := ["NOP"]
  back := ["NOP"]
  distinct := by decide
  arity := rfl
  begins := by decide +kernel
  holds := by decide +kernel
  ends := by decide +kernel
  calls := by decide +kernel
  inlines := by decide +kernel

/-- Where the name of the macro has a colon that it does not begin with, inlining a call can change
the meaning: the line is a label, with no instruction of its own. -/
theorem not_sameMeaning_colon :
    (colonUse.Admissible ∧ Plain colonSource ∧
      Lines.ofText colonSource = ⟨colonUse.lines, false⟩ ∧
      Lines.ofText colonInlined = ⟨colonUse.linesInlined, false⟩) ∧
    ¬ SameMeaning colonSource colonInlined := by
  decide +kernel

end MacroUse

end Assembly

end StackMachine
