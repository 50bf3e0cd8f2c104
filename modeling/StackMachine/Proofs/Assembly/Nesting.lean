import Mathlib.Data.List.Perm.Subperm
import StackMachine.Assembly.Expression.Eval
import StackMachine.Proofs.Assembly.Derivations
import StackMachine.Proofs.Text.Cutting

/-!
# Nested expansions

A macro body may call other macros, by name, through equates or through parameters, so that
only the run shows which calls are made inside of which. This module describes the calls that
are met on the way together with the calls that are being expanded at the time. The macros of
the latter are all different, because a call of one of them is refused; and nothing else is
refused for this reason. Since there are finitely many macros, every line ends.

## Main definitions

* `Assembly.Comes`: the assembling of a macro body comes to one of its lines.
* `Assembly.Meets`: a call is met while other calls are being expanded.

## Main results

* `Assembly.Meets.nodup`: the macros that are being expanded are all different.
* `Assembly.Meets.refused`: a call of one of them is refused.
* `Assembly.Assembles.meetsAgain`: what is refused for that is such a call.
* `Assembly.expansion_ends`: every line ends, with no macro expanded inside of itself.
-/

namespace StackMachine

namespace Assembly

/-! ### Taking labels off a line -/

theorem length_lt_of_takeLabel? {line name rest : Text} (h : takeLabel? line = some (name, rest)) :
    rest.length < line.length := by
  simp only [takeLabel?] at h
  split at h
  · rename_i behind found
    split_ifs at h
    obtain ⟨-, rfl⟩ := Prod.mk.inj (Option.some.inj h)
    have tail : .scalar ':' :: behind <:+ line := by
      rw [← found]
      exact (List.dropWhile_suffix _).trans (List.dropWhile_suffix _)
    have shorter := tail.length_le
    have trimmed := Text.length_trim_le behind
    rw [List.length_cons] at shorter
    omega
  · cases h

/-- Labels are taken off a line until none is left: the bound on their number is never reached. -/
theorem takeLabel?_eq_none_of_defineLabelsWithin {lineNo fuel : Nat} {s t : State}
    {line rest : Text} (enough : line.length ≤ fuel)
    (h : State.defineLabelsWithin lineNo fuel s line = (t, .ok rest)) : takeLabel? rest = none := by
  induction fuel generalizing s line with
  | zero =>
    cases h
    rw [List.length_eq_zero_iff.mp (Nat.le_zero.mp enough)]
    rfl
  | succ fuel ih =>
    unfold State.defineLabelsWithin at h
    split at h
    · rename_i none
      cases h
      exact none
    · rename_i name behind taken
      have shorter := length_lt_of_takeLabel? taken
      split_ifs at h
      · cases h
      · cases h
      · exact ih (by omega) h

/-! ### Calls inside of calls -/

section Meets

variable [Interpreter]

/-- With the macros `active` being expanded, the lines of the body of a call, the first of which is
number `lineNo`, are assembled from the tables `s` until line `m` is the next. -/
inductive Comes (active : List Text) (c : MacroCall) :
    Nat → List Text → State → Nat → Text → State → Prop
  | here {lineNo line rest s} :
      Comes active c lineNo (line :: rest) s lineNo (localise c.mark line) s
  | later {lineNo line rest s t m text u}
      (first : Assembles active (.line lineNo (localise c.mark line)) s (t, .ok ()))
      (others : Comes active c (lineNo + 1) rest t m text u) :
      Comes active c lineNo (line :: rest) s m text u

/-- While a line is assembled, with the macros `active` being expanded from the beginning, the call
`c` is met inside of the calls `stack`, the innermost of which is the first. -/
inductive Meets : List Text → Nat → Text → State → List MacroCall → MacroCall → State → Prop
  /-- The line itself makes the call. -/
  | here {active lineNo line s c t} (calls : Calls lineNo line s c t) :
      Meets active lineNo line s [] c t
  /-- The line makes a call that is expanded, and a line of its body meets the call. -/
  | inside {active lineNo line s outer t m text u stack c v} (calls : Calls lineNo line s outer t)
      (arity : outer.Matches) (free : outer.name ∉ active)
      (comes : Comes (outer.name :: active) outer outer.definition.lineNo outer.definition.body
        (outer.enter t) m text u)
      (deeper : Meets (outer.name :: active) m text u stack c v) :
      Meets active lineNo line s (stack ++ [outer]) c v

variable {active : List Text} {lineNo m : Nat} {line text : Text} {s t u v : State}
  {lines : List Text} {c outer : MacroCall} {stack : List MacroCall}

theorem Comes.macros (comes : Comes active c lineNo lines s m text u) : u.macros = s.macros := by
  induction comes with
  | here => rfl
  | later first _ ih => exact ih.trans first.macros

/-- A body ends with the first problem that it comes to. -/
theorem Comes.stops (comes : Comes active c lineNo lines s m text u) {p : Problem}
    (refused : Assembles active (.line m text) u (v, .error p)) :
    Assembles active (.body c lineNo lines) s (v, .error (.expansion c.name m text p)) := by
  induction comes with
  | here => exact .stops refused
  | later first _ ih => exact .next first (ih refused)

namespace Meets

/-- The macros of the calls that are being expanded are defined, and so is the one that is
called. -/
theorem defined (meets : Meets active lineNo line s stack c v) :
    ∀ d ∈ c :: stack, s.macros.find? d.name = some d.definition := by
  induction meets with
  | here calls => simpa using calls.found.1
  | @inside active lineNo line s outer t m text u stack c v calls _ _ comes _ ih =>
    have same : u.macros = s.macros := comes.macros.trans calls.macros
    intro d member
    rw [← List.cons_append, List.mem_append, List.mem_singleton] at member
    rcases member with deeper | rfl
    · exact same ▸ ih d deeper
    · exact calls.found.1

/-- No macro is expanded inside of itself, or inside of one of the macros that were being expanded
from the beginning. -/
theorem nodup (meets : Meets active lineNo line s stack c v) :
    (stack.map MacroCall.name).Nodup ∧ ∀ d ∈ stack, d.name ∉ active := by
  induction meets with
  | here => simp
  | inside _ _ free _ _ ih =>
    obtain ⟨distinct, fresh⟩ := ih
    constructor
    · rw [List.map_append, List.nodup_append]
      refine ⟨distinct, List.nodup_singleton _, ?_⟩
      rintro name inner other outermost rfl
      obtain ⟨d, member, rfl⟩ := List.mem_map.mp inner
      refine fresh d member (List.mem_cons.mpr (.inl ?_))
      simpa using outermost
    · intro d member
      rcases List.mem_append.mp member with deeper | last
      · exact fun busy => fresh d deeper (List.mem_cons_of_mem _ busy)
      · rwa [List.mem_singleton.mp last]

/-- The calls that are being expanded, with one more that is expanded inside of them, are no more
than the macros. -/
theorem length_le (meets : Meets active lineNo line s stack c v)
    (free : c.name ∉ stack.map MacroCall.name) : (c :: stack).length ≤ s.macroNames.length := by
  have distinct : ((c :: stack).map MacroCall.name).Nodup := by
    rw [List.map_cons]
    exact List.nodup_cons.mpr ⟨free, meets.nodup.1⟩
  have known : (c :: stack).map MacroCall.name ⊆ s.macroNames := by
    intro name member
    obtain ⟨d, inside, rfl⟩ := List.mem_map.mp member
    exact State.mem_macroNames (meets.defined d inside)
  simpa using (List.subperm_of_subset distinct known).length_le

/-- A call of a macro that is being expanded is what the line is refused for, through all the calls
that led to it. -/
theorem refused (meets : Meets active lineNo line s stack c v) (arity : c.Matches)
    (busy : c.name ∈ active ∨ c.name ∈ stack.map MacroCall.name) :
    ∃ w p, Assembles active (.line lineNo line) s (w, .error p) ∧ p.cause = .macroRecursion ∧
      p.token = c.name ∧ p.callers = (stack.map MacroCall.name).reverse := by
  induction meets with
  | @here active lineNo line s c t calls =>
    have again : c.name ∈ active := by simpa using busy
    exact ⟨t, .plain c.name .macroRecursion, .reenters calls arity again, rfl, rfl, rfl⟩
  | @inside active lineNo line s outer t m text u stack c v calls arityOuter free comes _ ih =>
    obtain ⟨w, p, line, cause, token, callers⟩ := ih arity (by
      simp only [List.map_append, List.map_cons, List.map_nil, List.mem_append,
        List.mem_singleton] at busy
      rw [List.mem_cons]
      tauto)
    refine ⟨_, .expansion outer.name m text p, .expands calls arityOuter free (comes.stops line),
      cause, token, ?_⟩
    rw [Problem.callers, callers]
    simp

end Meets

/-- A line has met a call of a macro that is being expanded, and the problem names this call and
those that led to it. -/
def MeetsAgain (active : List Text) (lineNo : Nat) (line : Text) (s : State) (p : Problem) : Prop :=
  ∃ stack c v, Meets active lineNo line s stack c v ∧ c.Matches ∧
    (c.name ∈ active ∨ c.name ∈ stack.map MacroCall.name) ∧ p.token = c.name ∧
    p.callers = (stack.map MacroCall.name).reverse

/-- A task has met such a call: on its line, or on a line of its body. -/
def Task.MeetsAgain (active : List Text) (s : State) (p : Problem) : Task → Prop
  | .line lineNo text => Assembly.MeetsAgain active lineNo text s p
  | .body c lineNo lines => ∃ m text u inner, Comes active c lineNo lines s m text u ∧
      p = .expansion c.name m text inner ∧ Assembly.MeetsAgain active m text u inner

/-- A task is refused for a macro that is called again only if the macro is being expanded. -/
theorem Assembles.meetsAgain {task : Task} {o : Outcome Unit} (h : Assembles active task s o)
    {p : Problem} (failed : o.2 = .error p) (recursion : p.cause = .macroRecursion) :
    task.MeetsAgain active s p := by
  induction h generalizing p with
  | ends ends =>
    obtain ⟨token, cause, rfl, other⟩ := ends.ownProblem p failed
    exact absurd recursion other
  | mismatch =>
    cases failed
    cases recursion
  | @reenters active lineNo line s c t calls arity busy =>
    cases failed
    exact ⟨[], c, t, .here calls, arity, .inl busy, rfl, rfl⟩
  | @expands active lineNo line s outer t u result calls arity free body ih =>
    obtain ⟨m, text, w, inner, comes, rfl, stack, c, v, meets, arityC, busy, token, callers⟩ :=
      ih failed recursion
    refine ⟨stack ++ [outer], c, v, .inside calls arity free comes meets, arityC, ?_, token, ?_⟩
    · simp only [List.map_append, List.map_cons, List.map_nil, List.mem_append,
        List.mem_singleton]
      rw [List.mem_cons] at busy
      tauto
    · rw [Problem.callers, callers]
      simp
  | done => cases failed
  | next first _ _ ih =>
    obtain ⟨m, text, u, inner, comes, same, line⟩ := ih failed recursion
    exact ⟨m, text, u, inner, .later first comes, same, line⟩
  | @stops active c lineNo line rest s t q first ih =>
    cases failed
    exact ⟨lineNo, _, s, q, .here, rfl, ih rfl recursion⟩

end Meets

/-! ### Every line ends -/

/-- **Every line ends**, whatever the macros, the equates and the line are. There is one outcome by
the rules, which have no bound, and a bound on the depth that is at least the number of macros does
not change it; nor does the bound on the number of labels. A call that is expanded and the calls
that it is expanded inside of are of macros that are all different, so that they are no more than
the macros. A call with the right number of arguments of a macro that is being expanded is what the
line is refused for; and a line is refused for this only if it has met such a call. -/
theorem expansion_ends [Interpreter] (s : State) (lineNo : Nat) (line : Text) :
    (∀ active, ∃! o, Assembles active (.line lineNo line) s o) ∧
    (∀ depth, s.macroNames.length ≤ depth →
      Assembles [] (.line lineNo line) s (assembleLine depth [] lineNo line s)) ∧
    (∀ t rest, s.defineLabels lineNo line = (t, .ok rest) → takeLabel? rest = none) ∧
    (∀ stack c t, Meets [] lineNo line s stack c t → c.Matches →
      c.name ∉ stack.map MacroCall.name →
        ((c :: stack).map MacroCall.name).Nodup ∧
        (∀ d ∈ c :: stack, s.macros.find? d.name = some d.definition) ∧
        (c :: stack).length ≤ s.macroNames.length) ∧
    (∀ stack c t, Meets [] lineNo line s stack c t → c.Matches →
      c.name ∈ stack.map MacroCall.name →
        ∃ p, (assembleLine s.macros.entries.length [] lineNo line s).2 = .error p ∧
          p.cause = .macroRecursion ∧ p.token = c.name ∧
          p.callers = (stack.map MacroCall.name).reverse) ∧
    ∀ p, (assembleLine s.macros.entries.length [] lineNo line s).2 = .error p →
      p.cause = .macroRecursion →
        ∃ stack c t, Meets [] lineNo line s stack c t ∧ c.Matches ∧
          c.name ∈ stack.map MacroCall.name ∧ p.token = c.name ∧
          p.callers = (stack.map MacroCall.name).reverse := by
  have enough : s.idle [] ≤ s.macros.entries.length := s.idle_le []
  refine ⟨fun active => ?_, fun depth large => ?_, fun t rest => ?_, ?_, ?_, ?_⟩
  · refine ⟨_, assembles_perform _ (Nat.le_refl (s.idle active)), fun o other => ?_⟩
    exact (other.perform_eq (Nat.le_refl _)).symm
  · exact assembles_line depth [] lineNo line s ((List.length_filter_le _ _).trans large)
  · exact takeLabel?_eq_none_of_defineLabelsWithin (Nat.le_refl _)
  · intro stack c t meets _ free
    refine ⟨?_, meets.defined, meets.length_le free⟩
    rw [List.map_cons]
    exact List.nodup_cons.mpr ⟨free, meets.nodup.1⟩
  · intro stack c t meets arity busy
    obtain ⟨w, p, refused, cause, token, callers⟩ := meets.refused arity (.inr busy)
    have outcome := refused.perform_eq enough
    exact ⟨p, congrArg Prod.snd outcome, cause, token, callers⟩
  · intro p failed recursion
    obtain ⟨stack, c, t, meets, arity, busy, token, callers⟩ :=
      (assembles_line _ [] lineNo line s enough).meetsAgain failed recursion
    exact ⟨stack, c, t, meets, arity, by simpa using busy, token, callers⟩

/-! ### Two macros that call what they are told to -/

/-- The tables with two macros, each of which calls its first parameter with the second and itself
as arguments. -/
def pingTables : State where
  macros := .ofList [("PING", { lineNo := 2, params := ["f", "g"], body := ["f g f"] }),
    ("PONG", { lineNo := 5, params := ["f", "g"], body := ["f g f"] })]

attribute [local instance] Assembly.Expression.interpreter

/-- The second macro calls the first again, through its parameter. -/
theorem expansion_ends_ping :
    (assembleLine 2 [] 7 "PING PONG PING" pingTables).2 =
      .error (.expansion "PING" 2 "f g f" (.expansion "PONG" 5 "f g f"
        (.plain "PING" .macroRecursion))) ∧
    ∃ stack c t, Meets [] 7 "PING PONG PING" pingTables stack c t ∧ c.name = "PING" ∧
      stack.map MacroCall.name = ["PONG", "PING"] := by
  have refused : (assembleLine 2 [] 7 "PING PONG PING" pingTables).2 =
      .error (.expansion "PING" 2 "f g f" (.expansion "PONG" 5 "f g f"
        (.plain "PING" .macroRecursion))) := by
    decide +kernel
  obtain ⟨-, -, -, -, -, only⟩ := expansion_ends pingTables 7 "PING PONG PING"
  obtain ⟨stack, c, t, meets, -, -, token, callers⟩ := only _ refused rfl
  refine ⟨refused, stack, c, t, meets, token.symm, ?_⟩
  rw [← List.reverse_inj, ← callers]
  rfl

end Assembly

end StackMachine
