import Mathlib.Logic.Relation
import Mathlib.Tactic.SplitIfs
import StackMachine.Assembly.Source

/-!
# What assembling can do to the tables

A line may define labels, set equates, expand macros inside one another and assemble
instructions, and it may fail on the way. Whatever it does, the tables change in a few
small ways only, which are listed here once. A property of the tables that every one of
them keeps holds after every source text.

## Main definitions

* `Assembly.Operand.Fits`: the operands that words stand for.
* `Assembly.State.Change`: one change of the tables.
* `Assembly.State.Reaches`: any number of changes.

## Main results

* `Assembly.operandOf_fits`: the operand of a word fits.
* `Assembly.reaches_assembleLine`: a line makes changes only, at every depth of expansion.
* `Assembly.Reader.reaches_readAll`: so do the lines of a source text.
-/

namespace StackMachine

namespace Assembly

/-! ### The operand of a word -/

/-- An operand that a word can stand for: a number of 24 bits or an identifier. -/
def Operand.Fits : Operand → Prop
  | .value n => Instr.operandMin ≤ n ∧ n ≤ Instr.operandMax
  | .label name => isIdentifier name = true

theorem fitted_bounds {word : Text} {n value : Int} (h : fitted word n = .ok value) :
    Instr.operandMin ≤ value ∧ value ≤ Instr.operandMax := by
  unfold fitted at h
  split at h
  · cases h
  · rename_i atLeast
    split at h
    · cases h
      exact Instr.signExtend_bounds n
    · split at h
      · cases h
        exact ⟨Int.not_lt.mp atLeast, by assumption⟩
      · cases h

theorem plainOperand_fits {word : Text} {operand : Operand} (h : plainOperand word = .ok operand) :
    operand.Fits := by
  unfold plainOperand at h
  split at h
  · rename_i n _
    cases hfit : fitted word n with
    | error cause => rw [hfit] at h; cases h
    | ok value =>
      rw [hfit] at h
      cases h
      exact fitted_bounds hfit
  · split at h
    · cases h
      assumption
    · cases h

/-- The operand of a word fits, with or without brackets and whatever the equates are. -/
theorem operandOf_fits {equates : Dictionary Text} {word : Text} {operand : Operand}
    (h : operandOf equates word = .ok operand) : operand.Fits := by
  unfold operandOf at h
  split at h
  · split at h
    · cases h
    · exact plainOperand_fits h
  · exact plainOperand_fits h

/-! ### Changes -/

namespace State

/-- The operands that an operation is assembled with: none, or one that fits. -/
def Carries (op : Opcode) : Option Operand → Prop
  | none => op.takesOperand = false
  | some operand => op.takesOperand = true ∧ operand.Fits

/-- One change of the tables. -/
inductive Change : State → State → Prop
  | setEquates (s : State) (equates : Dictionary Text) : Change s { s with equates := equates }
  | setMacros (s : State) (macros : Dictionary MacroDef) : Change s { s with macros := macros }
  | define (s : State) (lineNo : Nat) (name : Text) (named : isIdentifier name = true)
      (unused : s.hasLabel name = false) : Change s (s.addLabel lineNo name)
  | assemble (s : State) (lineNo : Nat) (words : List Text) (op : Opcode)
      (operand : Option Operand) (carries : Carries op operand) :
      Change s (s.append (s.statement lineNo words op operand))

/-- The tables that some changes lead to. -/
abbrev Reaches : State → State → Prop :=
  Relation.ReflTransGen Change

theorem reaches_emit (s : State) (lineNo : Nat) (words : List Text) :
    Reaches s (s.emit lineNo words).1 := by
  unfold emit
  split
  · exact .refl
  · split
    · exact .refl
    · rename_i op _
      split
      · rename_i takes
        split
        · exact .refl
        · split
          · exact .refl
          · rename_i operand found
            exact .single (.assemble s _ _ op (some operand) ⟨takes, operandOf_fits found⟩)
        · exact .refl
      · rename_i takesNone
        split
        · exact .single (.assemble s _ _ op none (by simpa [Carries] using takesNone))
        · exact .refl

theorem reaches_defineLabelsWithin (lineNo : Nat) :
    ∀ (fuel : Nat) (s : State) (line : Text),
      Reaches s (defineLabelsWithin lineNo fuel s line).1
  | 0, _, _ => .refl
  | fuel + 1, s, line => by
    unfold defineLabelsWithin
    split
    · exact .refl
    · rename_i name rest _
      split_ifs with invalid duplicate
      · exact .refl
      · exact .refl
      · have first : Change s (s.addLabel lineNo name) :=
          .define s lineNo name (by simpa using invalid) (by simpa using duplicate)
        exact .head first (reaches_defineLabelsWithin lineNo fuel _ rest)

theorem reaches_defineEquate (s : State) (words : List Text) :
    Reaches s (s.defineEquate words).1 := by
  unfold defineEquate
  split
  · split
    · exact .refl
    · exact .single (.setEquates s _)
  · exact .refl

end State

open State

/-! ### Macro calls and lines -/

/-- A way to assemble lines that makes changes only. -/
def OnlyChanges (assemble : LineAssembler) : Prop :=
  ∀ (lineNo : Nat) (line : Text) (s : State), Reaches s (assemble lineNo line s).1

theorem reaches_assembleBody {assemble : LineAssembler} (changes : OnlyChanges assemble)
    (c : MacroCall) (lineNo : Nat) (body : List Text) (s : State) :
    Reaches s (assembleBody assemble c lineNo body s).1 := by
  induction body generalizing lineNo s with
  | nil => exact .refl
  | cons line rest ih =>
    have first := changes lineNo (localise c.mark line) s
    simp only [assembleBody]
    split
    · rename_i t result
      rw [result] at first
      exact first.trans (ih (lineNo + 1) t)
    · rename_i t problem result
      rw [result] at first
      exact first

theorem reaches_expandBody {assemble : LineAssembler} (changes : OnlyChanges assemble)
    (c : MacroCall) (s : State) : Reaches s (expandBody assemble c s).1 := by
  -- the parameters are set first and taken back last
  refine .head (.setEquates s (s.equates.setAll (c.definition.params.zip c.arguments))) ?_
  exact (reaches_assembleBody changes c _ _ _).tail (.setEquates _ s.equates)

theorem reaches_expandCall {assemble : LineAssembler} (changes : OnlyChanges assemble)
    (active : List Text) (c : MacroCall) (s : State) :
    Reaches s (expandCall active assemble c s).1 := by
  unfold expandCall
  split_ifs
  · exact .refl
  · exact .refl
  · exact reaches_expandBody changes c s

theorem reaches_assembleWords {expand : MacroCall → State → Outcome Unit}
    (changes : ∀ c s, Reaches s (expand c s).1) (lineNo : Nat) (words : List Text) (s : State) :
    Reaches s (assembleWords expand lineNo words s).1 := by
  unfold assembleWords
  split
  · exact reaches_defineEquate s words
  · dsimp only
    split
    · exact .refl
    · split
      · exact changes _ s
      · exact reaches_emit s lineNo _

theorem reaches_assembleLineWith [Interpreter] {expand : MacroCall → State → Outcome Unit}
    (changes : ∀ c s, Reaches s (expand c s).1) : OnlyChanges (assembleLineWith expand) := by
  intro lineNo line s
  have numbered : Change s (s.atLine lineNo) := .setEquates s _
  unfold assembleLineWith
  dsimp only
  split
  · exact .single numbered
  · rename_i replaced _
    have labelled := reaches_defineLabelsWithin lineNo replaced.length (s.atLine lineNo) replaced
    split
    · rename_i t problem result
      rw [defineLabels] at result
      rw [result] at labelled
      exact .head numbered labelled
    · rename_i t behind result
      rw [defineLabels] at result
      rw [result] at labelled
      exact .head numbered (labelled.trans (reaches_assembleWords changes lineNo _ t))

/-- A line makes changes only, however deep the macros that it calls are expanded. -/
theorem reaches_assembleLine [Interpreter] (depth : Nat) (active : List Text) :
    OnlyChanges (assembleLine depth active) := by
  induction depth generalizing active with
  | zero =>
    refine reaches_assembleLineWith fun c s => ?_
    exact reaches_expandCall (fun _ _ _ => .refl) active c s
  | succ depth ih =>
    refine reaches_assembleLineWith fun c s => ?_
    exact reaches_expandCall (ih (c.name :: active)) active c s

/-! ### Source texts -/

namespace Reader

theorem reaches_beginMacro (r : Reader) (words : List Text) :
    Reaches r.state (r.beginMacro words).1.state := by
  unfold beginMacro
  split
  · exact .refl
  · split
    · exact .refl
    · exact .single (.setMacros _ _)
  · exact .refl

theorem reaches_endMacro (r : Reader) : Reaches r.state r.endMacro.1.state := by
  unfold endMacro
  split <;> exact .refl

theorem reaches_extendMacro (r : Reader) (name line : Text) :
    Reaches r.state (r.extendMacro name line).state := by
  unfold extendMacro
  split
  · exact .refl
  · exact .single (.setMacros _ _)

variable [Interpreter]

theorem reaches_assembleCurrent (r : Reader) : Reaches r.state r.assembleCurrent.1.state := by
  have changes := reaches_assembleLine r.state.macros.entries.length [] r.lineNo r.line r.state
  unfold assembleCurrent
  split
  all_goals
    rename_i result
    rw [result] at changes
    exact changes

/-- Reading one more line makes changes only. -/
theorem reaches_read (r : Reader) (raw : Text) : Reaches r.state (r.read raw).1.state := by
  unfold read
  dsimp only
  split_ifs
  · exact reaches_beginMacro { r with lineNo := r.lineNo + 1, line := stripComment raw } _
  · exact reaches_endMacro { r with lineNo := r.lineNo + 1, line := stripComment raw }
  · split
    · exact reaches_extendMacro { r with lineNo := r.lineNo + 1, line := stripComment raw } _ _
    · exact reaches_assembleCurrent { r with lineNo := r.lineNo + 1, line := stripComment raw }

/-- Reading lines makes changes only. -/
theorem reaches_readAll (r : Reader) (lines : List Text) :
    Reaches r.state (r.readAll lines).1.state := by
  induction lines generalizing r with
  | nil => exact .refl
  | cons raw rest ih =>
    have first := reaches_read r raw
    unfold readAll
    split
    · rename_i next result
      rw [result] at first
      exact first.trans (ih next)
    · rename_i next problem result
      rw [result] at first
      exact first

end Reader

end Assembly

end StackMachine
