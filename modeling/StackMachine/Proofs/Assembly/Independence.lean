import StackMachine.Proofs.Assembly.Substitution

/-!
# Source texts without expressions

The interpreter is asked for the values of expressions, and for nothing else. A source text without
a dollar sign has no expression, and neither has a line that the expansion of a macro makes of it:
nothing but the name of the macro and a number comes into the lines of its body. So all interpreters
assemble such a source text alike, and one that executes no program at all is enough to find out
what they make of it.

## Main definitions

* `Assembly.Interpreter.idle`: the interpreter that executes no program.
* `Assembly.Dollarless`: macros without expressions.
* `Assembly.AgreeOnDollarless`: two ways to assemble lines that agree on those without expressions.

## Main results

* `Assembly.agreeOnDollarless_assembleLine`: all interpreters assemble a line without dollar signs
  alike.
* `Assembler.parse_eq_of_dollarless`: so they do with a source text.
-/

namespace StackMachine

namespace Assembly

/-- The interpreter that executes no program. -/
@[reducible]
def Interpreter.idle : Interpreter where
  execute _ _ := none

/-- Macros without expressions: neither their names nor their bodies have dollar signs. -/
def Dollarless (macros : Dictionary MacroDef) : Prop :=
  ∀ name definition, macros.find? name = some definition →
    .scalar '$' ∉ name ∧ ∀ line ∈ definition.body, .scalar '$' ∉ line

/-! ### Lines -/

theorem not_mem_replaceCharacters {line : Text} (dollar : .scalar '$' ∉ line) :
    .scalar '$' ∉ replaceCharacters line := by
  intro member
  have digitless : Digitless [.scalar '$'] := by
    intro c same
    obtain rfl : c = '$' := by simpa using same
    decide
  obtain ⟨front, back, text⟩ := List.append_of_mem member
  have part := (within_replaceCharacters line).part _ digitless ⟨front, back, by simp [text]⟩
  exact dollar (part.subset (List.mem_singleton_self _))

theorem not_mem_localise {c : MacroCall} (name : .scalar '$' ∉ c.name) {line : Text}
    (dollar : .scalar '$' ∉ line) : .scalar '$' ∉ localise c.mark line := by
  intro member
  rcases mem_localise member with mark | inside
  · simp only [MacroCall.mark, CallSite.mark, MacroCall.site, List.mem_append, name,
      false_or] at mark
    rcases mark with (blank | digits) | blank
    · exact absurd blank (by decide)
    · obtain ⟨d, same, digit⟩ := Numeral.isDigit_of_mem_decimal digits
      cases same
      cases digit
    · exact absurd blank (by decide)
  · exact dollar inside

/-- Two ways to assemble lines that agree on the lines without dollar signs, as long as no macro
has one. -/
def AgreeOnDollarless (first second : LineAssembler) : Prop :=
  ∀ (lineNo : Nat) (line : Text) (s : State), .scalar '$' ∉ line → Dollarless s.macros →
    first lineNo line s = second lineNo line s

section Expansion

variable {first second : LineAssembler} (agree : AgreeOnDollarless first second)
  (keeps : KeepsMacros second)

include agree keeps

theorem AgreeOnDollarless.assembleBody {c : MacroCall} (name : .scalar '$' ∉ c.name)
    {body : List Text} (dollar : ∀ line ∈ body, .scalar '$' ∉ line) (lineNo : Nat) {s : State}
    (macros : Dollarless s.macros) :
    assembleBody first c lineNo body s = assembleBody second c lineNo body s := by
  induction body generalizing lineNo s with
  | nil => rfl
  | cons line rest ih =>
    obtain ⟨here, others⟩ := List.forall_mem_cons.mp dollar
    have kept := keeps lineNo (localise c.mark line) s
    simp only [Assembly.assembleBody, agree lineNo _ s (not_mem_localise name here) macros]
    generalize second lineNo (localise c.mark line) s = x at kept ⊢
    obtain ⟨t, problem | done⟩ := x
    · rfl
    · exact ih others (lineNo + 1) (kept ▸ macros)

theorem AgreeOnDollarless.expandCall (active : List Text) {c : MacroCall} {s : State}
    (found : s.macros.find? c.name = some c.definition) (macros : Dollarless s.macros) :
    expandCall active first c s = expandCall active second c s := by
  obtain ⟨name, body⟩ := macros c.name c.definition found
  have same (equates : Dictionary Text) :=
    agree.assembleBody keeps name body c.definition.lineNo (s := { s with equates }) macros
  simp only [Assembly.expandCall, expandBody, same]

end Expansion

theorem assembleWords_congr {expand expand' : MacroCall → State → Outcome Unit} {s : State}
    (agree : ∀ c, s.macros.find? c.name = some c.definition → expand c s = expand' c s)
    (lineNo : Nat) (words : List Text) :
    assembleWords expand lineNo words s = assembleWords expand' lineNo words s := by
  unfold assembleWords
  split
  · rfl
  · dsimp only
    split
    · rfl
    · rename_i name arguments _
      split
      · rename_i definition found
        exact agree ⟨lineNo, name, definition, arguments⟩ found
      · rfl

variable (I J : Interpreter)

theorem agreeOnDollarless_assembleLineWith {expand expand' : MacroCall → State → Outcome Unit}
    (agree : ∀ c s, s.macros.find? c.name = some c.definition → Dollarless s.macros →
      expand c s = expand' c s) :
    AgreeOnDollarless (@assembleLineWith I expand) (@assembleLineWith J expand') := by
  intro lineNo line s dollar macros
  have replaced := not_mem_replaceCharacters dollar
  have kept := State.macros_defineLabelsWithin lineNo (replaceCharacters line).length
    (s.atLine lineNo) (replaceCharacters line)
  unfold assembleLineWith State.defineLabels
  simp only [@Core.replaceExpressions_eq_self I _ _ replaced,
    @Core.replaceExpressions_eq_self J _ _ replaced]
  generalize State.defineLabelsWithin _ _ _ _ = x at kept ⊢
  obtain ⟨t, problem | behind⟩ := x
  · rfl
  · exact assembleWords_congr (fun c found => agree c t found (kept ▸ macros)) lineNo _

/-- All interpreters assemble a line without dollar signs alike, however deep calls are
expanded. -/
theorem agreeOnDollarless_assembleLine (depth : Nat) (active : List Text) :
    AgreeOnDollarless (@assembleLine I depth active) (@assembleLine J depth active) := by
  induction depth generalizing active with
  | zero => exact agreeOnDollarless_assembleLineWith I J fun _ _ _ _ => rfl
  | succ depth ih =>
    refine agreeOnDollarless_assembleLineWith I J fun c s found macros => ?_
    exact (ih (c.name :: active)).expandCall (macros_assembleLine depth _) active found macros

/-! ### The reader -/

namespace Reader

variable {r : Reader} (macros : Dollarless r.state.macros)

include macros

theorem dollarless_beginMacro {words : List Text} (dollar : ∀ word ∈ words, .scalar '$' ∉ word) :
    Dollarless (r.beginMacro words).1.state.macros := by
  unfold beginMacro
  split
  · exact macros
  · rename_i name params _
    split
    · exact macros
    · intro other definition found
      rcases Dictionary.eq_or_find?_of_find?_set found with ⟨rfl, rfl⟩ | ⟨-, old⟩
      · exact ⟨dollar _ (by simp), List.forall_mem_nil _⟩
      · exact macros other definition old
  · exact macros

theorem dollarless_extendMacro (name : Text) {line : Text} (dollar : .scalar '$' ∉ line) :
    Dollarless (r.extendMacro name line).state.macros := by
  unfold extendMacro
  split
  · exact macros
  · rename_i definition found
    obtain ⟨named, body⟩ := macros name definition found
    intro other entry member
    rcases Dictionary.eq_or_find?_of_find?_set member with ⟨rfl, rfl⟩ | ⟨-, old⟩
    · exact ⟨named, List.forall_mem_append.mpr ⟨body, by simpa using dollar⟩⟩
    · exact macros other entry old

theorem dollarless_read [Interpreter] {raw : Text} (dollar : .scalar '$' ∉ stripComment raw) :
    Dollarless (r.read raw).1.state.macros := by
  have now : Dollarless (r.advance (stripComment raw)).state.macros := macros
  rw [read_eq]
  split
  · exact dollarless_beginMacro now fun word inside member =>
      dollar ((Text.infix_of_mem_fields inside).subset member)
  · split
    · unfold endMacro
      split <;> exact now
    · split
      · exact dollarless_extendMacro now _ dollar
      · rwa [macros_assembleCurrent]

/-- All interpreters read a line without dollar signs alike. -/
theorem read_eq_of_dollarless {raw : Text} (dollar : .scalar '$' ∉ stripComment raw) :
    @read I r raw = @read J r raw := by
  have same := agreeOnDollarless_assembleLine I J r.state.macros.entries.length [] (r.lineNo + 1)
    (stripComment raw) r.state dollar macros
  rw [@read_eq I, @read_eq J]
  simp only [assembleCurrent, advance, same]

/-- So they do with several lines. -/
theorem readAll_eq_of_dollarless {lines : List Text}
    (dollar : ∀ raw ∈ lines, .scalar '$' ∉ stripComment raw) :
    @readAll I r lines = @readAll J r lines := by
  induction lines generalizing r with
  | nil => rfl
  | cons raw rest ih =>
    obtain ⟨here, others⟩ := List.forall_mem_cons.mp dollar
    have kept := @dollarless_read r macros J raw here
    simp only [readAll, read_eq_of_dollarless I J macros here]
    generalize @read J r raw = x at kept ⊢
    obtain ⟨next, done | problem⟩ := x
    · exact ih kept others
    · rfl

end Reader

end Assembly

open Assembly

/-- **Without expressions the interpreter does not count.** All interpreters assemble a source text
without dollar signs alike, whatever the equates of the assembler are. -/
theorem Assembler.parse_eq_of_dollarless (I J : Interpreter) (a : Assembler) {source : Text}
    (dollar : .scalar '$' ∉ source) : @parse I a source = @parse J a source := by
  have lines : ∀ raw ∈ (Lines.ofText source).lines, .scalar '$' ∉ stripComment raw := by
    intro raw inside member
    have line : .scalar '$' ∈ raw := (infix_stripComment raw).subset member
    exact dollar ((Lines.infix_of_mem_ofText inside).subset line)
  have start : Dollarless a.reader.state.macros := fun _ _ found => (by cases found)
  simp only [parse, Reader.readAll_eq_of_dollarless I J start lines]

end StackMachine
