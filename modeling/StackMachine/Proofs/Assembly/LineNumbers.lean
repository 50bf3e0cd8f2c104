import StackMachine.Proofs.Assembly.Linking
import StackMachine.Proofs.Assembly.LocalSources

/-!
# Line numbers

The number of a line enters the tables of an assembler in four places: in the statements, in
the equate that holds the current line, in the marks of local labels and in the line of the
last label. None of them reaches the instruction words or the labels of a text that is plain:
one without local labels, expressions, brackets and mention of the current line. Such lines
are assembled alike from wherever they are counted, macro calls included.

## Main definitions

* `Assembly.Plain`: texts in which equates replace words and nothing else is replaced.
* `Assembly.State.Alike`: tables that differ in line numbers only.
* `Assembly.Agree`: outcomes that are both failures, or the same result with related tables.
* `SameMeaning`: source texts with the same instruction words and labels, or both refused.

## Main results

* `Assembly.agree_assembleLine`: a plain line is assembled alike at every line number.
* `Assembly.Reader.agree_readAll`: so are plain lines that define no macro.
* `sameMeaning_of_agree`: readings that agree give source texts of the same meaning.
-/

namespace StackMachine

/-- A statement without the number of its line. -/
def Statement.unnumbered (statement : Statement) : Statement :=
  { statement with line := 0 }

namespace Assembly

/-! ### Plain texts -/

/-- Texts in which equates replace words and nothing else is replaced: there are no quoted
characters, expressions, operands in brackets and local labels, and the equate of the current line
is not named. -/
structure Plain (t : Text) : Prop where
  glyphs : ∀ c ∈ ['\'', '$', '[', '@'], .scalar c ∉ t
  unnamed : ¬ lineName <:+: t

theorem plain_iff (t : Text) :
    Plain t ↔
      ['\'', '$', '[', '@'].all (fun c => !t.contains (.scalar c)) = true ∧ ¬ lineName <:+: t := by
  simp only [List.all_eq_true, Bool.not_eq_true', List.contains_eq_mem, decide_eq_false_iff_not]
  exact ⟨fun h => ⟨h.glyphs, h.unnamed⟩, fun h => ⟨h.1, h.2⟩⟩

instance : DecidablePred Plain :=
  fun t => decidable_of_iff _ (plain_iff t).symm

namespace Plain

variable {s t : Text}

/-- The parts of a plain text are plain. -/
theorem of_part (plain : Plain t) (part : s <:+: t) : Plain s where
  glyphs := fun c special member => plain.glyphs c special (part.subset member)
  unnamed := fun named => plain.unnamed (named.trans part)

theorem ne_lineName (plain : Plain t) : t ≠ lineName := by
  rintro rfl
  exact plain.unnamed List.infix_rfl

theorem stripComment (plain : Plain t) : Plain (stripComment t) := by
  have front : t.upTo (.scalar ';') <+: t := List.takeWhile_prefix _
  exact plain.of_part ((Text.infix_trim _).trans front.isInfix)

theorem fields (plain : Plain t) : ∀ w ∈ t.fields, Plain w :=
  fun _ member => plain.of_part (Text.infix_of_mem_fields member)

end Plain

/-- Nothing is replaced in a line without quotes and dollar signs. -/
theorem replaceExpressions_of_not_mem [Interpreter] (equates : Dictionary Text) {line : Text}
    (quote : .scalar '\'' ∉ line) (dollar : .scalar '$' ∉ line) :
    replaceExpressions equates (replaceCharacters line) = .ok line := by
  rw [Core.replaceCharacters_eq_self quote, Core.replaceExpressions_eq_self equates dollar]

theorem Plain.replaceExpressions [Interpreter] {line : Text} (plain : Plain line)
    (equates : Dictionary Text) :
    replaceExpressions equates (replaceCharacters line) = .ok line :=
  replaceExpressions_of_not_mem equates (plain.glyphs _ (by decide)) (plain.glyphs _ (by decide))

/-- An operand without a bracket does not depend on the equates. -/
theorem Plain.operandOf {word : Text} (plain : Plain word) (equates : Dictionary Text) :
    operandOf equates word = plainOperand word := by
  have outside : word.head? ≠ some (.scalar '[') :=
    fun first => plain.glyphs _ (by decide) (List.mem_of_head? first)
  rw [Assembly.operandOf, if_neg outside]

/-- What stands behind a label is a part of the line. -/
theorem infix_of_takeLabel? {line name rest : Text} (h : takeLabel? line = some (name, rest)) :
    rest <:+: line := by
  simp only [takeLabel?] at h
  split at h
  · rename_i behind found
    split at h
    · cases h
    · obtain ⟨-, rfl⟩ := Prod.mk.inj (Option.some.inj h)
      refine (Text.infix_trim behind).trans ?_
      have tail : .scalar ':' :: behind <:+ line := by
        rw [← found]
        exact (List.dropWhile_suffix _).trans (List.dropWhile_suffix _)
      exact ((List.suffix_cons _ behind).trans tail).isInfix
  · cases h

theorem infix_of_defineLabelsWithin {lineNo fuel : Nat} {s t : State} {line rest : Text}
    (h : State.defineLabelsWithin lineNo fuel s line = (t, .ok rest)) : rest <:+: line := by
  induction fuel generalizing s line with
  | zero =>
    cases h
    exact List.infix_rfl
  | succ fuel ih =>
    unfold State.defineLabelsWithin at h
    split at h
    · cases h
      exact List.infix_rfl
    · rename_i taken
      split at h
      · cases h
      · split at h
        · cases h
        · exact (ih h).trans (infix_of_takeLabel? taken)

/-! ### Tables that differ in line numbers -/

/-- Tables with plain equates, but for the one of the current line, and plain macro bodies. -/
structure State.HoldsPlain (s : State) : Prop where
  values : ∀ name value, name ≠ lineName → s.equates.find? name = some value → Plain value
  bodies : ∀ name definition, s.macros.find? name = some definition →
    ∀ line ∈ definition.body, Plain line

/-- Plain tables that differ in line numbers only. -/
structure State.Alike (s t : State) : Prop where
  statements : s.statements.map Statement.unnumbered = t.statements.map Statement.unnumbered
  labels : s.labels = t.labels
  macros : s.macros = t.macros
  equates : ∀ name, name ≠ lineName → s.equates.find? name = t.equates.find? name
  plain : s.HoldsPlain

/-- Outcomes that agree: both are failures, or they have the same result and related tables. -/
inductive Agree (R : State → State → Prop) {α : Type} : Outcome α → Outcome α → Prop
  | ok {s t : State} (result : α) (related : R s t) : Agree R (s, .ok result) (t, .ok result)
  | error {s t : State} {p q : Problem} : Agree R (s, .error p) (t, .error q)

namespace State

variable {s t : State}

theorem HoldsPlain.alike (plain : s.HoldsPlain) : s.Alike s :=
  ⟨rfl, rfl, rfl, fun _ _ => rfl, plain⟩

namespace Alike

theorem address (alike : s.Alike t) : s.address = t.address := by
  have sizes := congrArg Array.size alike.statements
  simpa [State.address] using sizes

theorem append (alike : s.Alike t) {a b : Statement} (same : a.unnumbered = b.unnumbered) :
    (s.append a).Alike (t.append b) where
  statements := by simp [State.append, Array.map_push, alike.statements, same]
  labels := alike.labels
  macros := alike.macros
  equates := alike.equates
  plain := ⟨alike.plain.values, alike.plain.bodies⟩

theorem addLabel (alike : s.Alike t) (m n : Nat) (name : Text) :
    (s.addLabel m name).Alike (t.addLabel n name) where
  statements := alike.statements
  labels := by simp [State.addLabel, alike.labels, alike.address]
  macros := alike.macros
  equates := alike.equates
  plain := ⟨alike.plain.values, alike.plain.bodies⟩

/-- Tables stay alike with other equates that agree and are plain. -/
theorem withEquates (alike : s.Alike t) {d e : Dictionary Text}
    (same : ∀ name, name ≠ lineName → d.find? name = e.find? name)
    (plain : ∀ name value, name ≠ lineName → d.find? name = some value → Plain value) :
    State.Alike { s with equates := d } { t with equates := e } where
  statements := alike.statements
  labels := alike.labels
  macros := alike.macros
  equates := same
  plain := ⟨plain, alike.plain.bodies⟩

/-- Setting a name to one plain value keeps tables alike. -/
theorem setEquate (alike : s.Alike t) (name : Text) {value : Text} (plain : Plain value) :
    State.Alike { s with equates := s.equates.set name value }
      { t with equates := t.equates.set name value } := by
  refine alike.withEquates (fun other ne => ?_) fun other found ne h => ?_
  · by_cases same : name = other
    · rw [same, Dictionary.find?_set_self, Dictionary.find?_set_self]
    · rw [Dictionary.find?_set_of_ne _ _ same, Dictionary.find?_set_of_ne _ _ same,
        alike.equates other ne]
  · rcases Dictionary.eq_or_find?_of_find?_set h with ⟨-, rfl⟩ | ⟨-, old⟩
    · exact plain
    · exact alike.plain.values other found ne old

theorem atLine_left (alike : s.Alike t) (m : Nat) : (s.atLine m).Alike t := by
  refine alike.withEquates (fun name ne => ?_) fun name value ne h => ?_
  · rw [Dictionary.find?_set_of_ne _ _ (Ne.symm ne), alike.equates name ne]
  · rw [Dictionary.find?_set_of_ne _ _ (Ne.symm ne)] at h
    exact alike.plain.values name value ne h

theorem atLine_right (alike : s.Alike t) (n : Nat) : s.Alike (t.atLine n) := by
  refine alike.withEquates (fun name ne => ?_) alike.plain.values
  rw [Dictionary.find?_set_of_ne _ _ (Ne.symm ne), alike.equates name ne]

theorem hasLabel (alike : s.Alike t) (name : Text) : s.hasLabel name = t.hasLabel name := by
  rw [State.hasLabel, State.hasLabel, alike.labels]

/-- Plain words are replaced by the same words, and these are plain. -/
theorem replaceEquates (alike : s.Alike t) {words : List Text} (plain : ∀ w ∈ words, Plain w) :
    replaceEquates s.equates words = replaceEquates t.equates words :=
  List.map_congr_left fun w member => by rw [alike.equates w (plain w member).ne_lineName]

end Alike

theorem HoldsPlain.replaceEquates (holds : s.HoldsPlain) {words : List Text}
    (plain : ∀ w ∈ words, Plain w) : ∀ w ∈ replaceEquates s.equates words, Plain w := by
  intro w member
  obtain ⟨word, inside, rfl⟩ := List.mem_map.mp member
  cases found : s.equates.find? word with
  | none => exact plain word inside
  | some value => exact holds.values word value (plain word inside).ne_lineName found

/-- Statements of one operation differ in their line only. -/
theorem unnumbered_statement (same : s.address = t.address) (m n : Nat) (words : List Text)
    (op : Opcode) (operand : Option Operand) :
    (s.statement m words op operand).unnumbered = (t.statement n words op operand).unnumbered := by
  rcases operand with _ | value | name <;> simp [statement, Statement.unnumbered, same]

end State

open State

/-! ### Lines -/

section Lines

variable {s t : State}

/-- Plain words of an instruction assemble alike, whatever the equates are. -/
theorem agree_emit {R : State → State → Prop} (same : s.address = t.address) (related : R s t)
    (append : ∀ a b : Statement, a.unnumbered = b.unnumbered → R (s.append a) (t.append b))
    {words : List Text} (plain : ∀ w ∈ words, Plain w) (m n : Nat) :
    Agree R (s.emit m words) (t.emit n words) := by
  have statements := fun op operand =>
    append _ _ (unnumbered_statement same m n words op operand)
  unfold emit
  split
  · exact .ok () related
  · rename_i name operands
    split
    · exact .error
    · rename_i op _
      split
      · split
        · exact .error
        · rename_i word
          have word_plain : Plain word := plain word (by simp)
          rw [word_plain.operandOf, word_plain.operandOf]
          split
          · exact .error
          · exact .ok () (statements op _)
        · exact .error
      · split
        · exact .ok () (statements op none)
        · exact .error

theorem agree_defineLabelsWithin (alike : s.Alike t) (m n fuel : Nat) (line : Text) :
    Agree Alike (defineLabelsWithin m fuel s line) (defineLabelsWithin n fuel t line) := by
  induction fuel generalizing s t line with
  | zero => exact .ok line alike
  | succ fuel ih =>
    unfold defineLabelsWithin
    split
    · exact .ok line alike
    · rename_i name rest _
      rw [alike.hasLabel name]
      split
      · exact .error
      · split
        · exact .error
        · exact ih (alike.addLabel m n name) rest

theorem agree_defineEquate (alike : s.Alike t) {words : List Text} (plain : ∀ w ∈ words, Plain w) :
    Agree Alike (s.defineEquate words) (t.defineEquate words) := by
  unfold defineEquate
  split
  · rename_i directive name value
    have known : s.equates.contains name = t.equates.contains name := by
      rw [Dictionary.contains, Dictionary.contains,
        alike.equates name (plain name (by simp)).ne_lineName]
    rw [known]
    split
    · exact .error
    · exact .ok () (alike.setEquate name (plain value (by simp)))
  · exact .error

/-- A way to assemble lines that does not depend on their numbers. -/
def IgnoresNumbers (assemble : LineAssembler) : Prop :=
  ∀ (m n : Nat) (line : Text) (s t : State), Plain line → s.Alike t →
    Agree Alike (assemble m line s) (assemble n line t)

theorem agree_assembleBody {assemble : LineAssembler} (ignores : IgnoresNumbers assemble)
    (alike : s.Alike t) (c d : MacroCall) {body : List Text} (plain : ∀ line ∈ body, Plain line)
    (m n : Nat) :
    Agree Alike (assembleBody assemble c m body s) (assembleBody assemble d n body t) := by
  induction body generalizing s t m n with
  | nil => exact .ok () alike
  | cons line rest ih =>
    -- a plain line has no local labels, so that the marks of the calls do not count
    have unmarked : .scalar '@' ∉ line := (plain line List.mem_cons_self).glyphs _ (by decide)
    have first := ignores m n line s t (plain line List.mem_cons_self) alike
    simp only [assembleBody, localise_eq_self _ unmarked]
    generalize assemble m line s = x at first ⊢
    generalize assemble n line t = y at first ⊢
    cases first with
    | ok _ related => exact ih related (fun k hk => plain k (List.mem_cons_of_mem line hk)) _ _
    | error => exact .error

/-- A way to expand calls that does not depend on the number of the line of the call. -/
def IgnoresCallers (expand : MacroCall → State → Outcome Unit) : Prop :=
  ∀ (m n : Nat) (name : Text) (definition : MacroDef) (arguments : List Text) (s t : State),
    s.macros.find? name = some definition → (∀ w ∈ arguments, Plain w) → s.Alike t →
      Agree Alike (expand ⟨m, name, definition, arguments⟩ s)
        (expand ⟨n, name, definition, arguments⟩ t)

theorem State.Alike.setEquates (alike : s.Alike t) {pairs : List (Text × Text)}
    (plain : ∀ pair ∈ pairs, Plain pair.2) :
    State.Alike { s with equates := s.equates.setAll pairs }
      { t with equates := t.equates.setAll pairs } := by
  induction pairs generalizing s t with
  | nil => exact alike
  | cons pair rest ih =>
    have first := alike.setEquate pair.1 (plain pair List.mem_cons_self)
    exact ih first fun other member => plain other (List.mem_cons_of_mem pair member)

theorem ignoresCallers_expandCall {assemble : LineAssembler} (ignores : IgnoresNumbers assemble)
    (active : List Text) : IgnoresCallers (expandCall active assemble) := by
  intro m n name definition arguments s t found plain alike
  have body := alike.plain.bodies name definition found
  have values : ∀ pair ∈ definition.params.zip arguments, Plain pair.2 :=
    fun pair member => plain pair.2 (List.of_mem_zip member).2
  have inside := agree_assembleBody ignores (alike.setEquates values)
    ⟨m, name, definition, arguments⟩ ⟨n, name, definition, arguments⟩ body
    definition.lineNo definition.lineNo
  unfold expandCall
  split
  · exact .error
  · split
    · exact .error
    · simp only [expandBody]
      generalize assembleBody assemble ⟨m, name, definition, arguments⟩ _ _ _ = x at inside ⊢
      generalize assembleBody assemble ⟨n, name, definition, arguments⟩ _ _ _ = y at inside ⊢
      cases inside with
      | ok _ related => exact .ok () (related.withEquates alike.equates alike.plain.values)
      | error => exact .error

theorem agree_assembleWords {expand : MacroCall → State → Outcome Unit}
    (ignores : IgnoresCallers expand) (alike : s.Alike t) {words : List Text}
    (plain : ∀ w ∈ words, Plain w) (m n : Nat) :
    Agree Alike (assembleWords expand m words s) (assembleWords expand n words t) := by
  unfold assembleWords
  split
  · exact agree_defineEquate alike plain
  · have replaced := alike.plain.replaceEquates plain
    simp only [← alike.replaceEquates plain, ← alike.macros]
    generalize replaceEquates s.equates words = replacement at replaced ⊢
    cases replacement with
    | nil => exact .ok () alike
    | cons name arguments =>
      dsimp only
      cases found : s.macros.find? name with
      | some definition =>
        have values : ∀ w ∈ arguments, Plain w :=
          fun w member => replaced w (List.mem_cons_of_mem name member)
        exact ignores m n name definition arguments s t found values alike
      | none => exact agree_emit alike.address alike (fun _ _ => alike.append) replaced m n

theorem ignoresNumbers_assembleLineWith [Interpreter] {expand : MacroCall → State → Outcome Unit}
    (ignores : IgnoresCallers expand) : IgnoresNumbers (assembleLineWith expand) := by
  intro m n line s t plain alike
  have atLines := (alike.atLine_left m).atLine_right n
  have labelled := agree_defineLabelsWithin atLines m n line.length line
  simp only [assembleLineWith, plain.replaceExpressions, defineLabels]
  cases before : defineLabelsWithin m line.length (s.atLine m) line with
  | mk u x =>
    rw [before] at labelled
    generalize defineLabelsWithin n line.length (t.atLine n) line = y at labelled ⊢
    cases labelled with
    | ok rest related =>
      have behind := plain.of_part (infix_of_defineLabelsWithin before)
      exact agree_assembleWords ignores related behind.fields m n
    | error => exact .error

/-- A plain line is assembled alike at every line number, however deep calls are expanded. -/
theorem agree_assembleLine [Interpreter] (depth : Nat) (active : List Text) :
    IgnoresNumbers (assembleLine depth active) := by
  induction depth generalizing active with
  | zero =>
    refine ignoresNumbers_assembleLineWith fun m n name => ?_
    have refuses : IgnoresNumbers fun _ _ s => s.refuse name .macroRecursion :=
      fun _ _ _ _ _ _ _ => .error
    exact ignoresCallers_expandCall refuses active m n name
  | succ depth ih =>
    refine ignoresNumbers_assembleLineWith fun m n name => ?_
    exact ignoresCallers_expandCall (ih (name :: active)) active m n name

end Lines

/-! ### Reading -/

/-- The words of a source line. -/
abbrev sourceWords (raw : Text) : List Text :=
  (stripComment raw).fields

/-- Whether a line begins the definition of a macro. -/
def definesMacro (raw : Text) : Bool :=
  match sourceWords raw with
  | directive :: _ :: _ => directive = Text.ofString ".macro"
  | _ => false

/-- A line that neither begins nor ends the definition of a macro. -/
structure Undirected (raw : Text) : Prop where
  begins : (sourceWords raw).head? ≠ some (Text.ofString ".macro")
  ends : (sourceWords raw).head? ≠ some (Text.ofString ".endm")

theorem undirected_of_words {raw name : Text} {others : List Text}
    (words : sourceWords raw = name :: others)
    (h : ∀ directive ∈ [".equ", ".macro", ".endm"], name ≠ Text.ofString directive) :
    Undirected raw where
  begins := by simpa [words] using h ".macro" (by simp)
  ends := by simpa [words] using h ".endm" (by simp)

theorem Undirected.definesMacro {raw : Text} (undirected : Undirected raw) :
    definesMacro raw = false := by
  unfold Assembly.definesMacro
  split
  · rename_i words
    simpa [words] using undirected.begins
  · rfl

namespace Reader

/-- What reading leaves behind, as the outcome of assembling. -/
def outcome (x : Reader × Option Problem) : Outcome Unit :=
  (x.1.state, match x.2 with
    | none => .ok ()
    | some problem => .error problem)

/-- Readings that agree have both failed, or none has. -/
theorem cases_of_agree {R : State → State → Prop} {x y : Reader × Option Problem}
    (h : Agree R (outcome x) (outcome y)) :
    (x.2 = none ∧ y.2 = none ∧ R x.1.state y.1.state) ∨ (x.2 ≠ none ∧ y.2 ≠ none) := by
  obtain ⟨r, _ | p⟩ := x <;> obtain ⟨q, _ | p'⟩ := y <;> simp only [outcome] at h
  · cases h with
    | ok _ related => exact .inl ⟨rfl, rfl, related⟩
  · cases h
  · cases h
  · exact .inr ⟨by simp, by simp⟩

variable {r q : Reader}

section Lines

variable [Interpreter]

theorem outcome_assembleCurrent (r : Reader) :
    outcome r.assembleCurrent =
      assembleLine r.state.macros.entries.length [] r.lineNo r.line r.state := by
  unfold assembleCurrent
  split
  · rename_i result
    exact result.symm
  · rename_i result
    exact result.symm

@[simp] theorem openMacro_assembleCurrent (r : Reader) :
    r.assembleCurrent.1.openMacro = r.openMacro := by
  unfold assembleCurrent
  split <;> rfl

@[simp] theorem macros_assembleCurrent (r : Reader) :
    r.assembleCurrent.1.state.macros = r.state.macros :=
  (congrArg (·.1.macros) r.outcome_assembleCurrent).trans (macros_assembleLine _ _ _ _ _)

/-- A line without a directive is assembled outside of macro bodies. -/
theorem read_of_closed {r : Reader} (closed : r.openMacro = none) {raw : Text}
    (undirected : Undirected raw) :
    r.read raw = (r.advance (stripComment raw)).assembleCurrent := by
  rw [read_eq, if_neg undirected.begins, if_neg undirected.ends, closed]

/-- A line that defines no macro is refused outside of macro bodies, or assembled there. -/
theorem read_cases {raw : Text} (h : definesMacro raw = false) :
    (∃ token cause, ∀ r : Reader, r.openMacro = none →
      r.read raw = (r.advance (stripComment raw), some (.plain token cause))) ∨
    ∀ r : Reader, r.openMacro = none →
      r.read raw = (r.advance (stripComment raw)).assembleCurrent := by
  by_cases begins : (sourceWords raw).head? = some (Text.ofString ".macro")
  · refine .inl ⟨[], .macroSyntax, fun r closed => ?_⟩
    have opened : (r.advance (stripComment raw)).openMacro = none := closed
    rw [read_eq, if_pos begins]
    unfold beginMacro
    split
    · rename_i isOpen
      rw [opened] at isOpen
      cases isOpen
    · rename_i words
      rw [sourceWords, words, List.head?_cons, Option.some.injEq] at begins
      simp [definesMacro, sourceWords, words, begins] at h
    · rfl
  · by_cases ends : (sourceWords raw).head? = some (Text.ofString ".endm")
    · refine .inl ⟨[], .macroStrayEnd, fun r closed => ?_⟩
      have opened : (r.advance (stripComment raw)).openMacro = none := closed
      rw [read_eq, if_neg begins, if_pos ends, endMacro, opened]
    · exact .inr fun r closed => read_of_closed closed ⟨begins, ends⟩

/-- A line that defines no macro keeps the macros. -/
theorem macros_read (closed : r.openMacro = none) {raw : Text} (h : definesMacro raw = false) :
    (r.read raw).1.openMacro = none ∧ (r.read raw).1.state.macros = r.state.macros := by
  rcases read_cases h with ⟨token, cause, refused⟩ | assembled
  · rw [refused r closed]
    exact ⟨closed, rfl⟩
  · rw [assembled r closed]
    exact ⟨(openMacro_assembleCurrent _).trans closed, macros_assembleCurrent _⟩

theorem macros_readAll (closed : r.openMacro = none) {lines : List Text}
    (h : ∀ raw ∈ lines, definesMacro raw = false) :
    (r.readAll lines).1.openMacro = none ∧
      (r.readAll lines).1.state.macros = r.state.macros := by
  induction lines generalizing r with
  | nil => exact ⟨closed, rfl⟩
  | cons raw rest ih =>
    have first := macros_read closed (h raw List.mem_cons_self)
    rw [readAll]
    generalize r.read raw = x at first ⊢
    obtain ⟨next, outcome⟩ := x
    cases outcome with
    | some problem => exact first
    | none =>
      have others := ih first.1 fun k hk => h k (List.mem_cons_of_mem raw hk)
      exact ⟨others.1, others.2.trans first.2⟩

/-- A plain line that defines no macro is read alike at every line number. -/
theorem agree_read (closedR : r.openMacro = none) (closedQ : q.openMacro = none)
    (alike : r.state.Alike q.state) {raw : Text} (plain : Plain raw)
    (h : definesMacro raw = false) :
    Agree Alike (outcome (r.read raw)) (outcome (q.read raw)) := by
  rcases read_cases h with ⟨token, cause, refused⟩ | assembled
  · rw [refused r closedR, refused q closedQ]
    exact .error
  · have depth : r.state.macros.entries.length = q.state.macros.entries.length := by
      rw [alike.macros]
    rw [assembled r closedR, assembled q closedQ, outcome_assembleCurrent,
      outcome_assembleCurrent]
    simp only [advance, depth]
    exact agree_assembleLine _ [] _ _ _ _ _ plain.stripComment alike

/-- Plain lines that define no macro are read alike at every line number. -/
theorem agree_readAll (closedR : r.openMacro = none) (closedQ : q.openMacro = none)
    (alike : r.state.Alike q.state) {lines : List Text} (plain : ∀ raw ∈ lines, Plain raw)
    (h : ∀ raw ∈ lines, definesMacro raw = false) :
    Agree Alike (outcome (r.readAll lines)) (outcome (q.readAll lines)) := by
  induction lines generalizing r q with
  | nil => exact .ok () alike
  | cons raw rest ih =>
    have first := agree_read closedR closedQ alike (plain raw List.mem_cons_self)
      (h raw List.mem_cons_self)
    have nextR := (macros_read closedR (h raw List.mem_cons_self)).1
    have nextQ := (macros_read closedQ (h raw List.mem_cons_self)).1
    rw [readAll, readAll]
    generalize r.read raw = x at first nextR ⊢
    generalize q.read raw = y at first nextQ ⊢
    obtain ⟨next, ended⟩ := x
    obtain ⟨other, endedQ⟩ := y
    rcases cases_of_agree first with ⟨rfl, rfl, related⟩ | ⟨failed, failedQ⟩
    · exact ih nextR nextQ related (fun k hk => plain k (List.mem_cons_of_mem raw hk))
        fun k hk => h k (List.mem_cons_of_mem raw hk)
    · obtain ⟨problem, rfl⟩ := Option.ne_none_iff_exists'.mp failed
      obtain ⟨problemQ, rfl⟩ := Option.ne_none_iff_exists'.mp failedQ
      exact .error

/-- Plain lines that define no macro leave plain tables behind. -/
theorem holdsPlain_readAll (closed : r.openMacro = none) (holds : r.state.HoldsPlain)
    {lines : List Text} (plain : ∀ raw ∈ lines, Plain raw)
    (h : ∀ raw ∈ lines, definesMacro raw = false) (ended : (r.readAll lines).2 = none) :
    (r.readAll lines).1.state.HoldsPlain := by
  rcases cases_of_agree (agree_readAll closed closed holds.alike plain h) with
    ⟨-, -, alike⟩ | ⟨failed, -⟩
  · exact alike.plain
  · exact absurd ended failed

theorem readAll_cons_of_read {next : Reader} {raw : Text} (h : r.read raw = (next, none))
    (rest : List Text) : r.readAll (raw :: rest) = next.readAll rest := by
  rw [readAll, h]

theorem readAll_append (r : Reader) (front back : List Text) :
    r.readAll (front ++ back) =
      match r.readAll front with
      | (next, none) => next.readAll back
      | (next, some problem) => (next, some problem) := by
  induction front generalizing r with
  | nil => rfl
  | cons raw rest ih =>
    rw [List.cons_append, readAll, readAll]
    generalize r.read raw = x
    obtain ⟨next, _ | problem⟩ := x
    · exact ih next
    · rfl

theorem readAll_append_of_readAll {next : Reader} {front : List Text}
    (h : r.readAll front = (next, none)) (back : List Text) :
    r.readAll (front ++ back) = next.readAll back := by
  rw [readAll_append, h]

@[simp] theorem readAll_singleton (r : Reader) (raw : Text) : r.readAll [raw] = r.read raw := by
  rw [readAll]
  generalize r.read raw = x
  obtain ⟨next, _ | problem⟩ := x <;> rfl

/-- Readings that agree go on to agree on plain lines that define no macro. -/
theorem agree_readAll_append {front front' back : List Text}
    (agree : Agree Alike (outcome (r.readAll front)) (outcome (q.readAll front')))
    (closedR : (r.readAll front).1.openMacro = none)
    (closedQ : (q.readAll front').1.openMacro = none) (plain : ∀ raw ∈ back, Plain raw)
    (h : ∀ raw ∈ back, definesMacro raw = false) :
    Agree Alike (outcome (r.readAll (front ++ back))) (outcome (q.readAll (front' ++ back))) := by
  rw [readAll_append, readAll_append]
  generalize r.readAll front = x at agree closedR ⊢
  generalize q.readAll front' = y at agree closedQ ⊢
  obtain ⟨next, ended⟩ := x
  obtain ⟨other, endedQ⟩ := y
  rcases cases_of_agree agree with ⟨rfl, rfl, alike⟩ | ⟨failed, failedQ⟩
  · exact agree_readAll closedR closedQ alike plain h
  · obtain ⟨problem, rfl⟩ := Option.ne_none_iff_exists'.mp failed
    obtain ⟨problemQ, rfl⟩ := Option.ne_none_iff_exists'.mp failedQ
    exact .error

end Lines

/-! ### The end of a source text -/

theorem resolvable_iff_of_alike (alike : r.state.Alike q.state) :
    (∀ statement ∈ r.state.statements, r.state.Resolvable statement) ↔
      ∀ statement ∈ q.state.statements, q.state.Resolvable statement := by
  have unnumbered (s : State) : (∀ statement ∈ s.statements, s.Resolvable statement) ↔
      ∀ statement ∈ s.statements.map Statement.unnumbered, ∀ name,
        statement.link = some name → name ∈ s.labels.map Prod.fst := by
    simp [State.Resolvable, Statement.unnumbered]
  rw [unnumbered, unnumbered, alike.statements, alike.labels]

/-- The instruction words do not depend on the lines of the statements. -/
theorem image_program_of_alike (alike : r.state.Alike q.state) :
    r.program.image = q.program.image := by
  have unnumbered (p : Reader) : p.program.image =
      (p.state.statements.map Statement.unnumbered).map fun statement =>
        (p.state.resolved statement).instr.encode := by
    have word (statement : Statement) : (p.state.resolved statement.unnumbered).instr =
        (p.state.resolved statement).instr := by
      simp only [State.resolved, Statement.unnumbered]
      split <;> rfl
    simp [Program.image, program, Function.comp_def, word, ← List.map_toArray]
  have addresses : r.state.labelAddress? = q.state.labelAddress? := by
    funext name
    rw [labelAddress?, labelAddress?, alike.labels]
  have resolved : r.state.resolved = q.state.resolved := by
    funext statement
    rw [State.resolved, State.resolved, addresses]
  rw [unnumbered, unnumbered, alike.statements, resolved]

theorem exists_finish_iff_of_alike (alike : r.state.Alike q.state) (closedR : r.openMacro = none)
    (closedQ : q.openMacro = none) :
    (∃ p, r.finish false = .ok p) ↔ ∃ p, q.finish false = .ok p := by
  simp only [finish_eq_ok_iff, closedR, closedQ, resolvable_iff_of_alike alike, alike.labels,
    alike.address, exists_and_left, exists_eq]

end Reader

end Assembly

open Assembly

variable [Interpreter]

/-- Source texts that mean the same: both are accepted or none is, and accepted they have the same
instruction words and the same labels. -/
structure SameMeaning (source other : Text) : Prop where
  accepted : (∃ p, assemble source = .ok p) ↔ ∃ q, assemble other = .ok q
  image : ∀ p q, assemble source = .ok p → assemble other = .ok q → p.image = q.image
  labels : ∀ p q, assemble source = .ok p → assemble other = .ok q → p.labels = q.labels

theorem sameMeaning_iff (source other : Text) :
    SameMeaning source other ↔
      (assemble source).toOption.map (fun p => (p.image, p.labels)) =
        (assemble other).toOption.map fun p => (p.image, p.labels) := by
  cases first : assemble source with
  | error e =>
    cases second : assemble other with
    | error e' => exact ⟨fun _ => rfl, fun _ => ⟨by simp [first, second], by simp [first],
        by simp [first]⟩⟩
    | ok q =>
      refine ⟨fun same => ?_, fun h => by cases h⟩
      obtain ⟨p, accepted⟩ := same.accepted.mpr ⟨q, second⟩
      rw [first] at accepted
      cases accepted
  | ok p =>
    cases second : assemble other with
    | error e' =>
      refine ⟨fun same => ?_, fun h => by cases h⟩
      obtain ⟨q, accepted⟩ := same.accepted.mp ⟨p, first⟩
      rw [second] at accepted
      cases accepted
    | ok q =>
      simp only [Except.toOption, Option.map_some, Option.some.injEq, Prod.mk.injEq]
      refine ⟨fun same => ⟨same.image p q first second, same.labels p q first second⟩,
        fun h => ⟨by simp [first, second], ?_, ?_⟩⟩
      · simpa [first, second] using h.1
      · simpa [first, second] using h.2

instance (source other : Text) : Decidable (SameMeaning source other) :=
  decidable_of_iff _ (sameMeaning_iff source other).symm

/-- How far the lines of a source text can be read with the standard equates, and the problem at
which the reading stops. -/
def reading (lines : List Text) : Reader × Option Problem :=
  (Assembler.reader {}).readAll lines

omit [Interpreter] in
/-- The standard equates are plain. -/
theorem holdsPlain_reader : (Assembler.reader {}).state.HoldsPlain := by
  have empty : State.HoldsPlain {} := ⟨fun _ _ _ h => (by cases h), fun _ _ h => (by cases h)⟩
  have values : ∀ pair ∈ Assembler.standardEquates, Plain pair.2 := by decide
  exact (empty.alike.setEquates values).plain

theorem assemble_eq_ok_iff {source : Text} {lines : List Text}
    (h : Lines.ofText source = ⟨lines, false⟩) (p : Program) :
    assemble source = .ok p ↔
      (reading lines).2 = none ∧ (reading lines).1.finish false = .ok p := by
  rw [assemble, Assembler.parse_eq_ok_iff, h]
  constructor
  · rintro ⟨r, read, finished⟩
    rw [reading, read]
    exact ⟨rfl, finished⟩
  · rintro ⟨ended, finished⟩
    exact ⟨(reading lines).1, Prod.ext rfl ended, finished⟩

theorem eq_program_of_assemble {source : Text} {lines : List Text} {p : Program}
    (h : Lines.ofText source = ⟨lines, false⟩) (accepted : assemble source = .ok p) :
    p = (reading lines).1.program := by
  obtain ⟨-, finished⟩ := (assemble_eq_ok_iff h p).mp accepted
  exact ((Reader.finish_eq_ok_iff _ _ _).mp finished).2.2.2.2

/-- Readings that end outside of macro bodies and agree give source texts of the same meaning. -/
theorem sameMeaning_of_agree {source other : Text} {lines others : List Text}
    (hs : Lines.ofText source = ⟨lines, false⟩) (ho : Lines.ofText other = ⟨others, false⟩)
    (agree : Agree State.Alike (Reader.outcome (reading lines)) (Reader.outcome (reading others)))
    (closed : (reading lines).2 = none → (reading lines).1.openMacro = none)
    (closedO : (reading others).2 = none → (reading others).1.openMacro = none) :
    SameMeaning source other := by
  rcases Reader.cases_of_agree agree with ⟨ended, endedO, alike⟩ | ⟨failed, failedO⟩
  · refine ⟨?_, fun p q hp hq => ?_, fun p q hp hq => ?_⟩
    · simp only [assemble_eq_ok_iff hs, assemble_eq_ok_iff ho, ended, endedO, true_and]
      exact Reader.exists_finish_iff_of_alike alike (closed ended) (closedO endedO)
    · rw [eq_program_of_assemble hs hp, eq_program_of_assemble ho hq]
      exact Reader.image_program_of_alike alike
    · rw [eq_program_of_assemble hs hp, eq_program_of_assemble ho hq, Reader.program,
        Reader.program, alike.labels]
  · have refused : ∀ p, assemble source ≠ .ok p :=
      fun p accepted => failed ((assemble_eq_ok_iff hs p).mp accepted).1
    have refusedO : ∀ q, assemble other ≠ .ok q :=
      fun q accepted => failedO ((assemble_eq_ok_iff ho q).mp accepted).1
    exact ⟨by simp [refused, refusedO], fun p _ hp => absurd hp (refused p),
      fun p _ hp => absurd hp (refused p)⟩

end StackMachine
