import StackMachine.Assembly.Expression.Eval
import StackMachine.Proofs.Assembly.Derivations
import StackMachine.Proofs.Assembly.LineNumbers

/-!
# Locations of errors

An error says where it was found: on a line of the source text, or on a line of the body of a
macro, with the calls that led to it. This module spells an error out as a chain, in which places
and calls alternate, and shows that the chain is faithful. Its outermost place is the last line
that was read; every other place is a line of the definition of the macro of the call before it,
as it was written but for its local labels, which have the mark of this call.

## Main definitions

* `Assembly.Link`, `Assembly.SyntaxError.chain`: the chain of an error.
* `Assembly.InMacro`: a source line stands in the definition of a macro.
* `Assembler.linesRead`: the lines of a source text that are read.
* `Assembly.Located`: what a faithful chain is.

## Main results

* `Assembly.Assembles.leads`: a problem inside of calls is found on a line of each macro body.
* `Assembly.Reader.reports_readAll`: macro bodies are the lines that were read.
* `Assembler.error_located`: every error of an assembler has a faithful chain.
-/

namespace StackMachine

namespace Assembly

/-! ### Chains -/

/-- One error of a chain: a place, which is the number and the text of a line and the word that is
to blame there, or a call, which is the macro and the number of a line of its body. -/
inductive Link where
  | place (lineNo : Nat) (line token : Text)
  | call (name : Text) (lineNo : Nat)
  deriving DecidableEq

namespace Link

/-- Whether an error of a chain is a place. -/
def isPlace : Link → Bool
  | place .. => true
  | call .. => false

/-- The macro of a call. -/
def macro? : Link → Option Text
  | place .. => none
  | call name _ => some name

/-- The wording of an error of a chain, given that of its cause. -/
def message : Link → Text → Text
  | place lineNo line [], inner =>
    Message.render "line %d '%v' %v" [.int lineNo, .text line, .text inner]
  | place lineNo line token, inner =>
    Message.render "line %d '%v' at '%v' %v" [.int lineNo, .text line, .text token, .text inner]
  | call name lineNo, inner => expansionMessage name lineNo inner

end Link

/-- The chain of a problem on a line, the outermost error first. -/
def Problem.chain (lineNo : Nat) (line : Text) : Problem → List Link
  | plain token _ => [.place lineNo line token]
  | expansion name bodyNo body inner =>
    .place lineNo line [] :: .call name bodyNo :: chain bodyNo body inner

/-- The chain of an error, the outermost first. -/
def SyntaxError.chain (e : SyntaxError) : List Link :=
  e.problem.chain e.lineNo e.line

namespace Problem

variable (p : Problem) (lineNo : Nat) (line : Text)

theorem located_eq_chain :
    p.located lineNo line = (p.chain lineNo line).foldr Link.message p.cause.message := by
  induction p generalizing lineNo line with
  | plain token cause => cases token <;> rfl
  | expansion name bodyNo body inner ih =>
    rw [located, ih bodyNo body]
    rfl

theorem exists_chain_eq : ∃ token rest, p.chain lineNo line = .place lineNo line token :: rest := by
  cases p <;> exact ⟨_, _, rfl⟩

theorem length_chain : (p.chain lineNo line).length = 2 * p.callers.length + 1 := by
  induction p generalizing lineNo line with
  | plain => rfl
  | expansion name bodyNo body inner ih =>
    simp only [chain, callers, List.length_cons, ih]
    omega

theorem filterMap_chain : (p.chain lineNo line).filterMap Link.macro? = p.callers := by
  induction p generalizing lineNo line with
  | plain => rfl
  | expansion name bodyNo body inner ih =>
    simp only [chain, callers, List.filterMap_cons, Link.macro?, ih]

/-- Places and calls alternate. -/
theorem isPlace_chain {k : Nat} {link : Link} (h : (p.chain lineNo line)[k]? = some link) :
    link.isPlace = decide (k % 2 = 0) := by
  induction p generalizing lineNo line k with
  | plain =>
    obtain ⟨rfl, rfl⟩ : k = 0 ∧ _ = link := by simpa [chain, List.getElem?_cons] using h
    rfl
  | expansion name bodyNo body inner ih =>
    match k with
    | 0 =>
      cases h
      rfl
    | 1 =>
      cases h
      rfl
    | k + 2 =>
      rw [ih bodyNo body h, Nat.add_mod_right]

variable {p lineNo line}

/-- Where a chain goes on from a place to a call and on to the next place: here, or further
inside. -/
theorem infix_chain_expansion {name : Text} {bodyNo : Nat} {body : Text} {inner : Problem}
    {n : Nat} {l token : Text} {rest : List Link}
    (h : .place n l token :: rest <:+: (expansion name bodyNo body inner).chain lineNo line) :
    (n = lineNo ∧ token = [] ∧ rest <+: .call name bodyNo :: inner.chain bodyNo body) ∨
      .place n l token :: rest <:+: inner.chain bodyNo body := by
  rw [chain, List.infix_cons_iff, List.infix_cons_iff] at h
  rcases h with front | front | deeper
  · obtain ⟨same, others⟩ := List.cons_prefix_cons.mp front
    cases same
    exact .inl ⟨rfl, rfl, others⟩
  · cases (List.cons_prefix_cons.mp front).1
  · exact .inr deeper

/-- A call leads to the first place of the chain behind it. -/
theorem eq_of_prefix_call {name called text body word : Text} {m k bodyNo : Nat} {inner : Problem}
    (h : [.call name m, .place k text word] <+: .call called bodyNo :: inner.chain bodyNo body) :
    name = called ∧ m = bodyNo ∧ k = bodyNo ∧ text = body := by
  obtain ⟨token, rest, begins⟩ := inner.exists_chain_eq bodyNo body
  rw [begins] at h
  obtain ⟨call, tail⟩ := List.cons_prefix_cons.mp h
  obtain ⟨rfl, rfl⟩ := Link.call.inj call
  obtain ⟨rfl, rfl, -⟩ := Link.place.inj (List.cons_prefix_cons.mp tail).1
  exact ⟨rfl, rfl, rfl, rfl⟩

/-- No word is to blame at the place of a call. -/
theorem token_eq_nil_of_infix_chain {n m : Nat} {l token name : Text}
    (h : [.place n l token, .call name m] <:+: p.chain lineNo line) : token = [] := by
  induction p generalizing lineNo line with
  | plain => exact absurd h.length_le (by simp [chain])
  | expansion called bodyNo body inner ih =>
    rcases infix_chain_expansion h with ⟨-, told, -⟩ | deeper
    · exact told
    · exact ih deeper

/-- A call has the number of the place that it leads to. -/
theorem lineNo_eq_of_infix_chain {n m : Nat} {l token name : Text}
    (h : [.call name m, .place n l token] <:+: p.chain lineNo line) : n = m := by
  induction p generalizing lineNo line with
  | plain => exact absurd h.length_le (by simp [chain])
  | expansion called bodyNo body inner ih =>
    rw [chain, List.infix_cons_iff, List.infix_cons_iff] at h
    rcases h with front | front | deeper
    · cases (List.cons_prefix_cons.mp front).1
    · obtain ⟨-, rfl, rfl, -⟩ := eq_of_prefix_call front
      rfl
    · exact ih deeper

end Problem

/-! ### Problems inside of calls -/

/-- A line of the body of a macro, as a call on line `lineNo` sees it: its number and its text, in
which the local labels have the mark of the call. -/
def SeenInBody (macros : Dictionary MacroDef) (name : Text) (lineNo bodyNo : Nat) (text : Text) :
    Prop :=
  ∃ definition k line, macros.find? name = some definition ∧ definition.body[k]? = some line ∧
    bodyNo = definition.lineNo + k ∧ text = localise (CallSite.mark ⟨name, lineNo⟩) line

/-- A problem leads through calls, made first on line `lineNo`, to lines of the bodies of macros,
each of which is called once at most and none of which is among `active`. -/
def Problem.Leads (macros : Dictionary MacroDef) : List Text → Nat → Problem → Prop
  | _, _, plain _ _ => True
  | active, lineNo, expansion name bodyNo text inner =>
    name ∉ active ∧ SeenInBody macros name lineNo bodyNo text ∧
      inner.Leads macros (name :: active) bodyNo

namespace Problem.Leads

variable {macros : Dictionary MacroDef} {active : List Text} {lineNo : Nat} {line : Text}
  {p : Problem}

/-- The macros of the calls are all different. -/
theorem nodup (leads : p.Leads macros active lineNo) :
    p.callers.Nodup ∧ ∀ name ∈ p.callers, name ∉ active := by
  induction p generalizing active lineNo with
  | plain => simp [callers]
  | expansion name bodyNo text inner ih =>
    obtain ⟨free, -, deeper⟩ := leads
    obtain ⟨distinct, fresh⟩ := ih deeper
    rw [callers, List.nodup_cons, List.forall_mem_cons]
    refine ⟨⟨fun again => fresh name again List.mem_cons_self, distinct⟩, free, ?_⟩
    exact fun other member busy => fresh other member (List.mem_cons_of_mem name busy)

/-- The macros of the calls are defined. -/
theorem defined (leads : p.Leads macros active lineNo) :
    ∀ name ∈ p.callers, macros.contains name = true := by
  induction p generalizing active lineNo with
  | plain => simp [callers]
  | expansion name bodyNo text inner ih =>
    obtain ⟨-, ⟨definition, k, line, found, -⟩, deeper⟩ := leads
    rw [callers, List.forall_mem_cons]
    exact ⟨by rw [Dictionary.contains, found, Option.isSome_some], ih deeper⟩

/-- A place behind a call is a line of the body of the macro. -/
theorem seenInBody (leads : p.Leads macros active lineNo) {n m k : Nat} {l token name text : Text}
    {word : Text}
    (h : [.place n l token, .call name m, .place k text word] <:+: p.chain lineNo line) :
    SeenInBody macros name n k text := by
  induction p generalizing active lineNo line with
  | plain => exact absurd h.length_le (by simp [chain])
  | expansion called bodyNo body inner ih =>
    obtain ⟨-, seen, deeper⟩ := leads
    rcases infix_chain_expansion h with ⟨rfl, -, others⟩ | further
    · obtain ⟨rfl, rfl, rfl, rfl⟩ := eq_of_prefix_call others
      exact seen
    · exact ih deeper further

end Problem.Leads

/-- What is said about a task that is refused: its problem leads through calls, the first of which,
in a body, is the call of the macro. -/
def Task.Leads (macros : Dictionary MacroDef) (active : List Text) (p : Problem) : Task → Prop
  | .line lineNo _ => p.Leads macros active lineNo
  | .body c lineNo lines => ∃ k line inner, lines[k]? = some line ∧
      p = .expansion c.name (lineNo + k) (localise c.mark line) inner ∧
      inner.Leads macros active (lineNo + k)

/-- The problem of a task that is refused leads to lines of macro bodies. -/
theorem Assembles.leads [Interpreter] {active : List Text} {task : Task} {s : State}
    {o : Outcome Unit} (h : Assembles active task s o) {p : Problem} (failed : o.2 = .error p) :
    task.Leads s.macros active p := by
  induction h generalizing p with
  | ends ends =>
    obtain ⟨token, cause, rfl, -⟩ := ends.ownProblem p failed
    trivial
  | mismatch =>
    cases failed
    trivial
  | reenters =>
    cases failed
    trivial
  | @expands active lineNo line s c t u result calls _ free body ih =>
    obtain ⟨k, text, inner, found, rfl, deeper⟩ := ih failed
    obtain ⟨defined, rfl⟩ := calls.found
    have same : (c.enter t).macros = s.macros := calls.macros
    exact ⟨free, ⟨c.definition, k, text, defined, found, rfl, rfl⟩, same ▸ deeper⟩
  | done => cases failed
  | @next active c lineNo line rest s t o first _ _ ih =>
    obtain ⟨k, text, inner, found, rfl, deeper⟩ := ih failed
    have same : t.macros = s.macros := first.macros
    rw [Nat.add_right_comm, Nat.add_assoc] at deeper ⊢
    exact ⟨k + 1, text, inner, found, rfl, same ▸ deeper⟩
  | @stops active c lineNo line rest s t q first ih =>
    cases failed
    exact ⟨0, line, q, rfl, rfl, ih rfl⟩

/-! ### Source lines -/

/-- The source line with a number, counted from one. -/
def line? (lines : List Text) : Nat → Option Text
  | 0 => none
  | k + 1 => lines[k]?

variable {lines : List Text} {raw name : Text} {n : Nat}

theorem line?_append (more : List Text) (h : line? lines n = some raw) :
    line? (lines ++ more) n = some raw := by
  cases n with
  | zero => cases h
  | succ k =>
    have inside : k < lines.length := (List.getElem?_eq_some_iff.mp h).1
    rw [← h]
    exact List.getElem?_append_left inside

theorem line?_concat (lines : List Text) (raw : Text) :
    line? (lines ++ [raw]) (lines.length + 1) = some raw := by
  simp [line?]

/-- A source line stands in the definition of a macro: a line before it begins the definition, and
no line from there on begins or ends another. -/
def InMacro (lines : List Text) (name : Text) (lineNo : Nat) (raw : Text) : Prop :=
  line? lines lineNo = some raw ∧
    ∃ first head params, line? lines first = some head ∧
      sourceWords head = Text.ofString ".macro" :: name :: params ∧ first < lineNo ∧
      ∀ k between, first < k → k ≤ lineNo → line? lines k = some between → Undirected between

/-- The definition of a macro as it stands in source lines. -/
structure Written (lines : List Text) (name : Text) (definition : MacroDef) : Prop where
  /-- The line before the body begins the definition. -/
  begins : ∃ first head, definition.lineNo = first + 1 ∧ line? lines first = some head ∧
    sourceWords head = Text.ofString ".macro" :: name :: definition.params
  /-- The lines of the body follow. -/
  body : ∀ k text, definition.body[k]? = some text → ∃ raw,
    line? lines (definition.lineNo + k) = some raw ∧ stripComment raw = text ∧ Undirected raw

namespace Written

variable {definition : MacroDef}

theorem append (written : Written lines name definition) (more : List Text) :
    Written (lines ++ more) name definition where
  begins := by
    obtain ⟨first, head, number, found, words⟩ := written.begins
    exact ⟨first, head, number, line?_append more found, words⟩
  body := fun k text inside => by
    obtain ⟨raw, found, stripped, undirected⟩ := written.body k text inside
    exact ⟨raw, line?_append more found, stripped, undirected⟩

/-- The lines of the body stand in the definition. -/
theorem inMacro (written : Written lines name definition) {k : Nat} {text : Text}
    (inside : definition.body[k]? = some text) :
    ∃ raw, InMacro lines name (definition.lineNo + k) raw ∧ stripComment raw = text := by
  obtain ⟨first, head, number, found, words⟩ := written.begins
  obtain ⟨raw, line, stripped, -⟩ := written.body k text inside
  refine ⟨raw, ⟨line, first, head, _, found, words, by omega, ?_⟩, stripped⟩
  intro j between behind upTo present
  obtain ⟨i, rfl⟩ : ∃ i, j = definition.lineNo + i := ⟨j - definition.lineNo, by omega⟩
  have small : i < definition.body.length := by
    have bound := (List.getElem?_eq_some_iff.mp inside).1
    omega
  obtain ⟨other, same, -, undirected⟩ :=
    written.body i _ (List.getElem?_eq_getElem small)
  rw [present] at same
  cases same
  exact undirected

/-- A body with one more line, which is the next of the source lines. -/
theorem extend (written : Written lines name definition)
    (next : definition.lineNo + definition.body.length = lines.length + 1)
    (undirected : Undirected raw) :
    Written (lines ++ [raw]) name
      { definition with body := definition.body ++ [stripComment raw] } where
  begins := (written.append [raw]).begins
  body := by
    intro k text inside
    rcases Nat.lt_trichotomy k definition.body.length with before | rfl | behind
    · rw [List.getElem?_append_left before] at inside
      exact (written.append [raw]).body k text inside
    · obtain rfl : stripComment raw = text := by simpa using inside
      exact ⟨raw, by rw [next, line?_concat], rfl, undirected⟩
    · rw [List.getElem?_eq_none (by simp; omega)] at inside
      cases inside

end Written

/-! ### Reading -/

namespace Reader

/-- What a reader has kept of the lines that it has read. -/
structure Records (r : Reader) (lines : List Text) : Prop where
  /-- Their number. -/
  lineNo : r.lineNo = lines.length
  /-- The last of them. -/
  line : r.line = (lines.getLast?.map stripComment).getD []
  /-- The macros that they define. -/
  written : ∀ name definition, r.state.macros.find? name = some definition →
    Written lines name definition

/-- The next line to be read belongs behind the body of the macro whose definition has not
ended. -/
def Awaits (r : Reader) (lines : List Text) : Prop :=
  ∀ name, r.openMacro = some name → ∃ definition, r.state.macros.find? name = some definition ∧
    definition.lineNo + definition.body.length = lines.length + 1

/-- What is known after some lines were read, the last of which may be refused. -/
structure Reports (x : Reader × Option Problem) (lines : List Text) : Prop where
  records : x.1.Records lines
  awaits : x.2 = none → x.1.Awaits lines
  leads : ∀ p, x.2 = some p → p.Leads x.1.state.macros [] x.1.lineNo

variable {r : Reader} {token : Text} {cause : Cause}

theorem Records.advance (records : r.Records lines) (raw : Text) :
    (r.advance (stripComment raw)).Records (lines ++ [raw]) where
  lineNo := by simp [Reader.advance, records.lineNo]
  line := by simp [Reader.advance]
  written := fun name definition found => (records.written name definition found).append [raw]

theorem Reports.refuse (records : r.Records lines) :
    Reports (r, some (.plain token cause)) lines where
  records := records
  awaits := by rintro ⟨⟩
  leads := by
    rintro p ⟨⟩
    trivial

/-- A table of macros in which one is new or set anew. -/
theorem Records.setMacro (records : r.Records lines) {definition : MacroDef}
    (written : Written lines name definition) (openMacro : Option Text) :
    Records { r with
      state := { r.state with macros := r.state.macros.set name definition }
      openMacro := openMacro } lines where
  lineNo := records.lineNo
  line := records.line
  written := by
    intro other found member
    rcases Dictionary.eq_or_find?_of_find?_set member with ⟨rfl, rfl⟩ | ⟨-, old⟩
    · exact written
    · exact records.written other found old

theorem reports_beginMacro (records : r.Records lines)
    (begins : (sourceWords raw).head? = some (Text.ofString ".macro")) :
    Reports ((r.advance (stripComment raw)).beginMacro (sourceWords raw)) (lines ++ [raw]) := by
  have advanced := records.advance raw
  unfold beginMacro
  split
  · exact .refuse advanced
  · rename_i directive name params _ words
    rw [words, List.head?_cons, Option.some.injEq] at begins
    subst begins
    split_ifs
    · exact .refuse advanced
    · have written : Written (lines ++ [raw]) name
          { lineNo := (r.advance (stripComment raw)).lineNo + 1, params := params } :=
        ⟨⟨lines.length + 1, raw, by rw [advanced.lineNo, List.length_append]; rfl,
          line?_concat lines raw, words⟩, fun k text inside => by cases inside⟩
      refine ⟨advanced.setMacro written _, ?_, by rintro p ⟨⟩⟩
      rintro - opened ⟨⟩
      refine ⟨_, Dictionary.find?_set_self _ _ _, ?_⟩
      simp [advanced.lineNo]
  · exact .refuse advanced

theorem reports_endMacro (records : r.Records lines) (raw : Text) :
    Reports (r.advance (stripComment raw)).endMacro (lines ++ [raw]) := by
  have advanced := records.advance raw
  unfold endMacro
  split
  · exact .refuse advanced
  · refine ⟨⟨advanced.lineNo, advanced.line, advanced.written⟩, ?_, by rintro p ⟨⟩⟩
    rintro - name ⟨⟩

theorem reports_extendMacro (records : r.Records lines) (awaits : r.Awaits lines)
    (isOpen : r.openMacro = some name) (undirected : Undirected raw) :
    Reports ((r.advance (stripComment raw)).extendMacro name (stripComment raw), none)
      (lines ++ [raw]) := by
  obtain ⟨definition, found, next⟩ := awaits name isOpen
  have entry : (r.advance (stripComment raw)).state.macros.find? name = some definition := found
  have longer := (records.written name definition found).extend next undirected
  simp only [extendMacro, entry]
  refine ⟨(records.advance raw).setMacro longer _, ?_, by rintro p ⟨⟩⟩
  rintro - other opened
  obtain rfl : name = other := Option.some.inj (isOpen.symm.trans opened)
  refine ⟨_, Dictionary.find?_set_self _ _ _, ?_⟩
  simp only [List.length_append, List.length_singleton]
  omega

variable [Interpreter]

theorem reports_assembleCurrent (records : r.Records lines) (closed : r.openMacro = none) :
    Reports r.assembleCurrent lines := by
  have assembled := assembles_line _ [] r.lineNo r.line r.state (r.state.idle_le [])
  have kept := assembled.macros
  have written (t : State) (same : t.macros = r.state.macros) :
      Records { r with state := t } lines :=
    ⟨records.lineNo, records.line, by simpa only [same] using records.written⟩
  unfold assembleCurrent
  generalize assembleLine _ [] r.lineNo r.line r.state = x at assembled kept ⊢
  obtain ⟨t, p | _⟩ := x
  · refine ⟨written t kept, by rintro ⟨⟩, ?_⟩
    rintro q ⟨⟩
    have leads : p.Leads r.state.macros [] r.lineNo := assembled.leads rfl
    exact kept ▸ leads
  · refine ⟨written t kept, ?_, by rintro p ⟨⟩⟩
    rintro - name opened
    rw [closed] at opened
    cases opened

/-- Reading one more line. -/
theorem reports_read (records : r.Records lines) (awaits : r.Awaits lines) (raw : Text) :
    Reports (r.read raw) (lines ++ [raw]) := by
  rw [read_eq]
  split_ifs with begins ends
  · exact reports_beginMacro records begins
  · exact reports_endMacro records raw
  · split
    · rename_i name isOpen
      exact reports_extendMacro records awaits isOpen ⟨begins, ends⟩
    · rename_i closed
      exact reports_assembleCurrent (records.advance raw) closed

/-- The lines that are read, up to the first that is refused. -/
def linesRead (r : Reader) : List Text → List Text
  | [] => []
  | raw :: rest =>
    raw ::
      match r.read raw with
      | (next, none) => next.linesRead rest
      | (_, some _) => []

/-- Reading lines: the tables hold the macros as they were read, and a problem leads to lines of
their bodies. -/
theorem reports_readAll (records : r.Records lines) (awaits : r.Awaits lines) (raws : List Text) :
    Reports (r.readAll raws) (lines ++ r.linesRead raws) := by
  induction raws generalizing r lines with
  | nil =>
    rw [linesRead, List.append_nil]
    exact ⟨records, fun _ => awaits, by rintro p ⟨⟩⟩
  | cons raw rest ih =>
    have first := reports_read records awaits raw
    rw [readAll, linesRead]
    generalize r.read raw = x at first ⊢
    obtain ⟨next, _ | problem⟩ := x
    · have others := ih first.records (first.awaits rfl)
      rwa [List.append_assoc, List.singleton_append] at others
    · exact first

end Reader

/-! ### Errors -/

/-- A cause that is found only when all lines are read, and is reported where it matters. -/
def Cause.isLate : Cause → Bool
  | labelLonely | labelMissing _ => true
  | _ => false

/-- An error with a faithful chain, given the lines that were read and the macros. -/
structure Located (lines : List Text) (macros : Dictionary MacroDef) (e : SyntaxError) : Prop where
  /-- The message spells the chain out, from the outermost error to the cause. -/
  message : e.message = e.chain.foldr Link.message e.problem.cause.message
  /-- The outermost error is a place. -/
  outermost : ∃ token, e.chain.head? = some (.place e.lineNo e.line token)
  /-- Places and calls alternate. -/
  alternates : ∀ k link, e.chain[k]? = some link → link.isPlace = decide (k % 2 = 0)
  /-- The innermost error is a place too. -/
  innermost : ∃ link, e.chain.getLast? = some link ∧ link.isPlace = true
  /-- No word is to blame at the place of a call. -/
  blameless : ∀ n line token name m,
    [.place n line token, .call name m] <:+: e.chain → token = []
  /-- A call has the number of the place that it leads to. -/
  numbered : ∀ name m n line token, [.call name m, .place n line token] <:+: e.chain → n = m
  /-- The macros of the calls are all different. -/
  distinct : (e.chain.filterMap Link.macro?).Nodup
  /-- They are defined. -/
  defined : ∀ name ∈ e.chain.filterMap Link.macro?, macros.contains name = true
  /-- The outermost place is the last line that was read, if one was. -/
  read : e.problem.cause.isLate = false → e.lineNo = lines.length ∧
    (lines = [] ∧ e.line = [] ∨ ∃ raw, line? lines e.lineNo = some raw ∧ e.line = stripComment raw)
  /-- Every other place is a line in the definition of the macro that is called, with the mark of
  the call for its local labels. -/
  inBodies : ∀ n line token name m k text word,
    [.place n line token, .call name m, .place k text word] <:+: e.chain →
      ∃ raw, InMacro lines name k raw ∧
        text = localise (CallSite.mark ⟨name, n⟩) (stripComment raw)

/-- What a reader has kept makes the chain of an error faithful. -/
theorem located_of_leads {macros : Dictionary MacroDef} {e : SyntaxError}
    (written : ∀ name definition, macros.find? name = some definition →
      Written lines name definition)
    (leads : e.problem.Leads macros [] e.lineNo)
    (read : e.problem.cause.isLate = false →
      e.lineNo = lines.length ∧ e.line = (lines.getLast?.map stripComment).getD []) :
    Located lines macros e where
  message := e.problem.located_eq_chain e.lineNo e.line
  outermost := by
    obtain ⟨token, rest, begins⟩ := e.problem.exists_chain_eq e.lineNo e.line
    exact ⟨token, by rw [SyntaxError.chain, begins, List.head?_cons]⟩
  alternates := fun _ _ => e.problem.isPlace_chain e.lineNo e.line
  innermost := by
    have length := e.problem.length_chain e.lineNo e.line
    have inside : e.chain.length - 1 < e.chain.length := by
      rw [SyntaxError.chain, length]
      omega
    refine ⟨e.chain[e.chain.length - 1], ?_, ?_⟩
    · rw [List.getLast?_eq_getElem?, List.getElem?_eq_getElem inside]
    · rw [e.problem.isPlace_chain e.lineNo e.line (List.getElem?_eq_getElem inside),
        SyntaxError.chain, length]
      simp
  blameless := fun _ _ _ _ _ => Problem.token_eq_nil_of_infix_chain
  numbered := fun _ _ _ _ _ => Problem.lineNo_eq_of_infix_chain
  distinct := by
    rw [SyntaxError.chain, Problem.filterMap_chain]
    exact leads.nodup.1
  defined := by
    rw [SyntaxError.chain, Problem.filterMap_chain]
    exact leads.defined
  read := by
    intro early
    obtain ⟨number, last⟩ := read early
    refine ⟨number, ?_⟩
    rcases List.eq_nil_or_concat lines with rfl | ⟨front, raw, rfl⟩
    · exact .inl ⟨rfl, last⟩
    · refine .inr ⟨raw, ?_, by simpa using last⟩
      rw [number, List.length_concat, List.concat_eq_append, line?_concat]
  inBodies := by
    intro n line token name m k text word link
    obtain ⟨definition, j, body, found, inside, rfl, rfl⟩ := leads.seenInBody link
    obtain ⟨raw, inMacro, rfl⟩ := (written name definition found).inMacro inside
    exact ⟨raw, inMacro, rfl⟩

/-! ### The end of a source text -/

/-- A label without an address is reported without calls. -/
theorem State.exists_of_linkAll {s : State} {statements : List Statement} {e : SyntaxError}
    (h : s.linkAll statements = .error e) :
    ∃ label, e.problem = .plain label (.labelMissing label) := by
  induction statements with
  | nil => cases h
  | cons statement rest ih =>
    cases first : s.link statement with
    | error other =>
      simp only [linkAll, first, bind, Except.bind] at h
      cases h
      unfold link at first
      repeat' split at first
      all_goals cases first
      exact ⟨_, rfl⟩
    | ok linked =>
      cases others : s.linkAll rest with
      | error other =>
        simp only [linkAll, first, others, bind, Except.bind] at h
        cases h
        exact ih others
      | ok list =>
        simp only [linkAll, first, others, bind, Except.bind] at h
        cases h

/-- What is refused at the end of a source text is refused without calls, and on the last line that
was read unless it is found late. -/
theorem Reader.exists_of_finish {r : Reader} {overlong : Bool} {e : SyntaxError}
    (h : r.finish overlong = .error e) :
    ∃ token cause, e.problem = .plain token cause ∧
      (cause.isLate = false → e.lineNo = r.lineNo ∧ e.line = r.line) := by
  unfold finish at h
  split_ifs at h
  · cases h
    exact ⟨[], .lineTooLong, rfl, fun _ => ⟨rfl, rfl⟩⟩
  · cases h
    exact ⟨[], .macroOpen, rfl, fun _ => ⟨rfl, rfl⟩⟩
  · split at h
    · cases h
      exact ⟨_, .labelLonely, rfl, by rintro ⟨⟩⟩
    · cases linked : r.state.linkAll r.state.statements.toList with
      | error other =>
        simp only [linked, bind, Except.bind] at h
        cases h
        obtain ⟨label, problem⟩ := State.exists_of_linkAll linked
        exact ⟨label, .labelMissing label, problem, by rintro ⟨⟩⟩
      | ok statements =>
        simp only [linked, bind, Except.bind] at h
        cases h

@[simp] theorem Reader.macros_settled (r : Reader) (overlong : Bool) :
    (r.settled overlong).macros = r.state.macros := by
  unfold settled
  split_ifs <;> rfl

end Assembly

open Assembly

namespace Assembler

/-- The lines of a source text that are read. -/
def linesRead [Interpreter] (a : Assembler) (source : Text) : List Text :=
  a.reader.linesRead (Lines.ofText source).lines

/-- **Errors are located.** Where a source text is refused there is no program, and the error has a
chain of places and calls from the last line that was read, through a line of each macro that is
being expanded, to the line and the word to blame. -/
theorem error_located [Interpreter] (a : Assembler) (source : Text) (e : SyntaxError)
    (refused : (a.parse source).2 = .error e) :
    (∀ p, (a.parse source).2 ≠ .ok p) ∧
      Located (a.linesRead source) (a.parse source).1.state.macros e := by
  have unaccepted : ∀ p, (a.parse source).2 ≠ .ok p := by simp [refused]
  refine ⟨unaccepted, ?_⟩
  have start : a.reader.Records [] := ⟨rfl, rfl, by rintro name definition ⟨⟩⟩
  have awaits : a.reader.Awaits [] := by rintro name ⟨⟩
  have reports := Reader.reports_readAll start awaits (Lines.ofText source).lines
  rw [List.nil_append, ← linesRead] at reports
  unfold parse at refused ⊢
  dsimp only at refused ⊢
  generalize a.reader.readAll (Lines.ofText source).lines = x at reports refused ⊢
  obtain ⟨r, _ | problem⟩ := x
  · obtain ⟨token, cause, plain, onLast⟩ := Reader.exists_of_finish refused
    simp only [Reader.macros_settled]
    refine located_of_leads reports.records.written (by rw [plain]; trivial) fun early => ?_
    rw [plain] at early
    obtain ⟨number, line⟩ := onLast early
    exact ⟨number.trans reports.records.lineNo, line.trans reports.records.line⟩
  · cases refused
    exact located_of_leads reports.records.written (reports.leads problem rfl) fun _ =>
      ⟨reports.records.lineNo, reports.records.line⟩

/-- A source text with an unknown operation in a macro that is called by another. -/
def mistakenLines : List Text :=
  [".macro INNER x", "; waits", "@loop: BAD x", ".endm", ".macro OUTER", "", "INNER 1 ; twice",
   ".endm", "NOP", "OUTER ; here"]

attribute [local instance] Assembly.Expression.interpreter

/-- The body lines have their numbers in the source text, and the local label has the mark of the
call on line 7. -/
theorem error_located_mistaken :
    ∃ e, (Assembler.parse {} (Text.join "\n" mistakenLines)).2 = .error e ∧
      e.chain = [.place 10 "OUTER" [], .call "OUTER" 7, .place 7 "INNER 1" [], .call "INNER" 3,
        .place 3 "INNER_7_loop: BAD x" "BAD"] ∧
      Located (Assembler.linesRead {} (Text.join "\n" mistakenLines))
        (Assembler.parse {} (Text.join "\n" mistakenLines)).1.state.macros e := by
  have refused : (Assembler.parse {} (Text.join "\n" mistakenLines)).2 =
      .error ⟨10, "OUTER", .expansion "OUTER" 7 "INNER 1"
        (.expansion "INNER" 3 "INNER_7_loop: BAD x" (.plain "BAD" .opcodeInvalid))⟩ := by
    decide +kernel
  exact ⟨_, refused, rfl, (error_located {} _ _ refused).2⟩

end Assembler

end StackMachine
