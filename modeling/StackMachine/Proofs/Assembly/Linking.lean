import StackMachine.Assembly.Source

/-!
# The end of a source text

Once all lines are read, a source text is accepted exactly if the reading was complete,
no label stands behind the last instruction, and every label that an operand stands for
is defined. The program then holds every statement in its place, with the address of its
label.

## Main definitions

* `Assembly.State.Resolvable`: a statement whose label, if it has one, is defined.
* `Assembly.State.resolved`: a statement with the address of its label.

## Main results

* `Assembly.State.linkAll_eq_ok_iff`: when statements can be linked, and to what.
* `Assembly.Reader.finish_eq_ok_iff`: when a source text is accepted, and with what program.
* `Assembler.parse_eq_ok_iff`: the same for an assembler.
-/

namespace StackMachine

namespace Assembly

/-- A sequence gives a result exactly if both parts do. -/
theorem bind_eq_ok_iff {ε α β : Type} (x : Except ε α) (f : α → Except ε β) (b : β) :
    (x >>= f) = .ok b ↔ ∃ a, x = .ok a ∧ f a = .ok b := by
  cases x with
  | error e => simp [bind, Except.bind]
  | ok a => simp [bind, Except.bind]

namespace State

variable {s : State}

/-- The label of a statement, if it has one, is defined. -/
def Resolvable (s : State) (statement : Statement) : Prop :=
  ∀ name, statement.link = some name → name ∈ s.labels.map Prod.fst

/-- A statement with the address of its label as operand, if it has one that is defined. -/
def resolved (s : State) (statement : Statement) : Statement :=
  match statement.link.bind s.labelAddress? with
  | none => statement
  | some address =>
    { statement with instr := { statement.instr with operand := Int32.ofInt address } }

@[simp] theorem resolved_line (s : State) (statement : Statement) :
    (s.resolved statement).line = statement.line := by
  unfold resolved
  split <;> rfl

@[simp] theorem resolved_ip (s : State) (statement : Statement) :
    (s.resolved statement).ip = statement.ip := by
  unfold resolved
  split <;> rfl

@[simp] theorem resolved_words (s : State) (statement : Statement) :
    (s.resolved statement).words = statement.words := by
  unfold resolved
  split <;> rfl

@[simp] theorem resolved_link (s : State) (statement : Statement) :
    (s.resolved statement).link = statement.link := by
  unfold resolved
  split <;> rfl

@[simp] theorem resolved_tag (s : State) (statement : Statement) :
    (s.resolved statement).instr.tag = statement.instr.tag := by
  unfold resolved
  split <;> rfl

theorem resolved_of_literal {statement : Statement} (h : statement.link = none) :
    s.resolved statement = statement := by
  simp [resolved, h]

theorem resolved_operand {statement : Statement} {name : Text} {address : Nat}
    (h : statement.link = some name) (found : s.labelAddress? name = some address) :
    (s.resolved statement).instr.operand = Int32.ofInt address := by
  simp [resolved, h, found]

/-! ### Addresses of labels -/

theorem hasLabel_iff (s : State) (name : Text) :
    s.hasLabel name = true ↔ name ∈ s.labels.map Prod.fst := by
  simp [hasLabel]

theorem labelAddress?_eq_none_iff (s : State) (name : Text) :
    s.labelAddress? name = none ↔ name ∉ s.labels.map Prod.fst := by
  simp only [labelAddress?, Option.map_eq_none_iff, List.find?_eq_none, decide_eq_true_eq,
    List.mem_map, not_exists, not_and]

theorem mem_of_labelAddress? {name : Text} {address : Nat}
    (h : s.labelAddress? name = some address) : (name, address) ∈ s.labels := by
  obtain ⟨⟨key, value⟩, found, rfl⟩ := Option.map_eq_some_iff.mp h
  have keyEq : key = name := by simpa using List.find?_some found
  exact keyEq ▸ List.mem_of_find?_eq_some found

theorem exists_labelAddress? {name : Text} (h : name ∈ s.labels.map Prod.fst) :
    ∃ address, s.labelAddress? name = some address := by
  cases found : s.labelAddress? name with
  | none => exact absurd h ((labelAddress?_eq_none_iff s name).mp found)
  | some address => exact ⟨address, rfl⟩

theorem lonelyLabel?_eq_none_iff (s : State) :
    s.lonelyLabel? = none ↔ ∀ label ∈ s.labels, label.2 ≠ s.address := by
  simp [lonelyLabel?]

/-! ### Linking -/

theorem link_eq_ok_iff (s : State) (statement linked : Statement) :
    s.link statement = .ok linked ↔ s.Resolvable statement ∧ linked = s.resolved statement := by
  unfold link Resolvable resolved
  cases statement.link with
  | none => simp [eq_comm]
  | some label =>
    simp only [Option.some.injEq, forall_eq', Option.bind_some]
    cases found : s.labelAddress? label with
    | none =>
      have undefined := (labelAddress?_eq_none_iff s label).mp found
      simp [undefined]
    | some address =>
      have defined := List.mem_map_of_mem (f := Prod.fst) (mem_of_labelAddress? found)
      simp only [Except.ok.injEq, defined, true_and]
      exact eq_comm

/-- Statements are linked exactly if every label they have is defined. -/
theorem linkAll_eq_ok_iff (s : State) (statements linked : List Statement) :
    s.linkAll statements = .ok linked ↔
      (∀ statement ∈ statements, s.Resolvable statement) ∧
        linked = statements.map s.resolved := by
  induction statements generalizing linked with
  | nil => simp [linkAll, eq_comm]
  | cons statement rest ih =>
    simp only [linkAll, bind_eq_ok_iff, link_eq_ok_iff, ih, List.forall_mem_cons, List.map_cons]
    constructor
    · rintro ⟨_, ⟨first, rfl⟩, _, ⟨others, rfl⟩, result⟩
      cases result
      exact ⟨⟨first, others⟩, rfl⟩
    · rintro ⟨⟨first, others⟩, rfl⟩
      exact ⟨_, ⟨first, rfl⟩, _, ⟨others, rfl⟩, rfl⟩

end State

/-! ### Accepting -/

/-- The program of a reader that has read all lines. -/
def Reader.program (r : Reader) : Program where
  statements := (r.state.statements.toList.map r.state.resolved).toArray
  labels := r.state.labels.map fun (name, address) => (name, (address : Int))

/-- A program has as many statements as the tables behind it. -/
theorem Reader.size_program (r : Reader) : r.program.size = r.state.address := by
  simp [program, Program.size, State.address]

/-- A program has the labels of the tables behind it. -/
theorem Reader.names_program (r : Reader) :
    r.program.labels.map Prod.fst = r.state.labels.map Prod.fst := by
  simp [program, Function.comp_def]

theorem Reader.mem_program (r : Reader) {statement : Statement}
    (h : statement ∈ r.program.statements) :
    ∃ draft ∈ r.state.statements, r.state.resolved draft = statement := by
  simpa [program] using h

/-- When a source text that has been read is accepted, and with what program. -/
theorem Reader.finish_eq_ok_iff (r : Reader) (overlong : Bool) (p : Program) :
    r.finish overlong = .ok p ↔
      overlong = false ∧ r.openMacro = none ∧
        (∀ label ∈ r.state.labels, label.2 ≠ r.state.address) ∧
        (∀ statement ∈ r.state.statements, r.state.Resolvable statement) ∧ p = r.program := by
  unfold finish
  cases overlong with
  | true => simp
  | false =>
    cases r.openMacro with
    | some name => simp
    | none =>
      simp only [Bool.false_eq_true, Option.isSome_none, if_false, true_and, Array.mem_def,
        ← State.lonelyLabel?_eq_none_iff]
      cases r.state.lonelyLabel? with
      | some label => simp
      | none =>
        simp only [bind_eq_ok_iff, State.linkAll_eq_ok_iff, true_and]
        constructor
        · rintro ⟨_, ⟨resolvable, rfl⟩, result⟩
          cases result
          exact ⟨resolvable, rfl⟩
        · rintro ⟨resolvable, rfl⟩
          exact ⟨_, ⟨resolvable, rfl⟩, rfl⟩

end Assembly

open Assembly

/-- An assembler accepts a source text exactly if it can read all lines and then finish. -/
theorem Assembler.parse_eq_ok_iff [Interpreter] (a : Assembler) (source : Text) (p : Program) :
    (a.parse source).2 = .ok p ↔
      ∃ r, a.reader.readAll (Lines.ofText source).lines = (r, none) ∧
        r.finish (Lines.ofText source).overlong = .ok p := by
  unfold parse
  dsimp only
  split
  · rename_i r result
    simp [result]
  · rename_i r problem result
    simp [result]

end StackMachine
