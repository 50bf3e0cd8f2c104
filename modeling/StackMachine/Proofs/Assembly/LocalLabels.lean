import StackMachine.Proofs.Assembly.CoreLine
import StackMachine.Proofs.Assembly.Expansion

/-!
# Local labels

A label that is written with an at sign in the body of a macro is local: in every
expansion its name gets a mark, made of the name of the macro and the number of the line
that calls it. Where names consist of letters and digits, the mark and the name of a local
label can be read back from the label. So two expansions can define the same label only if
they are of one macro and called from one line.

## Main definitions

* `Assembly.CallSite.Owns`: the labels that an expansion can define.
* `Assembly.DefinesLocals`: the local labels that a line of a macro body defines.
* `Assembly.OnlyLocals`: source texts all of whose labels are local.
* `Assembly.TakesOff`: the labels at the front of a line after substitution.

## Main results

* `Assembly.CallSite.eq_of_owns`: a label belongs to one macro and one line.
* `Assembly.DefinesLocals.takesOff`: the labels of a line of a macro body in an expansion.
-/

namespace StackMachine

namespace Assembly

/-! ### Plain names -/

/-- Whether a glyph is a letter or a digit. -/
def isAlphanumeric : Glyph → Bool
  | .scalar c => c.isAlphanum
  | .stray _ => false

/-- Whether a word is a letter with letters and digits behind it. -/
def isPlainName : Text → Bool
  | .scalar c :: rest => c.isAlpha && rest.all isAlphanumeric
  | _ => false

theorem isAlphanumeric_of_isPlainName {name : Text} (plain : isPlainName name = true) :
    ∀ g ∈ name, isAlphanumeric g = true := by
  intro g member
  unfold isPlainName at plain
  split at plain
  · rename_i c rest
    simp only [Bool.and_eq_true, List.all_eq_true] at plain
    rcases List.mem_cons.mp member with rfl | later
    · simp [isAlphanumeric, Char.isAlphanum, plain.1]
    · exact plain.2 g later
  · cases plain

theorem ne_of_isAlphanumeric {g k : Glyph} (h : isAlphanumeric g = true)
    (hk : isAlphanumeric k = false) : g ≠ k := by
  rintro rfl
  rw [h] at hk
  cases hk

theorem continuesIdentifier_of_isAlphanumeric {g : Glyph} (h : isAlphanumeric g = true) :
    continuesIdentifier g = true := by
  cases g with
  | stray b => cases h
  | scalar c => simp [continuesIdentifier, show c.isAlphanum = true from h]

/-! ### Marks -/

namespace CallSite

/-- The labels that an expansion can define: the mark of the call and a plain name. -/
def Owns (site : CallSite) (label : Text) : Prop :=
  isPlainName site.name = true ∧
    ∃ name, isPlainName name = true ∧ label = site.mark ++ name

theorem underscore_not_mem {name : Text} (plain : isPlainName name = true) :
    Glyph.scalar '_' ∉ name :=
  fun member =>
    ne_of_isAlphanumeric (isAlphanumeric_of_isPlainName plain _ member) (by decide) rfl

/-- The mark and the name can be read back from a local label. -/
theorem mark_append_inj {a b : CallSite} {m n : Text} (ha : isPlainName a.name = true)
    (hb : isPlainName b.name = true) (h : a.mark ++ m = b.mark ++ n) : a = b ∧ m = n := by
  have digits : ∀ k : Nat, Glyph.scalar '_' ∉ Text.ofString (Numeral.decimal k) := by
    intro k member
    obtain ⟨c, same, digit⟩ := Numeral.isDigit_of_mem_decimal member
    cases same
    cases digit
  have spelled : ∀ (site : CallSite) (name : Text), site.mark ++ name =
      site.name ++ .scalar '_' ::
        (Text.ofString (Numeral.decimal site.lineNo) ++ .scalar '_' :: name) := by
    intro site name
    simp [mark, Text.ofString]
  rw [spelled, spelled] at h
  obtain ⟨names, behind⟩ :=
    Text.cut_first_inj (underscore_not_mem ha) (underscore_not_mem hb) h
  obtain ⟨lines, locals⟩ := Text.cut_first_inj (digits _) (digits _) behind
  obtain ⟨nameA, lineA⟩ := a
  obtain ⟨nameB, lineB⟩ := b
  cases names
  cases Numeral.decimal_injective (Text.ofString_injective lines)
  exact ⟨rfl, locals⟩

/-- A label belongs to one macro and one line. -/
theorem eq_of_owns {a b : CallSite} {label : Text} (ha : a.Owns label) (hb : b.Owns label) :
    a = b := by
  obtain ⟨plainA, m, -, same⟩ := ha
  obtain ⟨plainB, n, -, rfl⟩ := hb
  exact (mark_append_inj plainA plainB same.symm).1

theorem continuesIdentifier_of_mem_mark {site : CallSite} (plain : isPlainName site.name = true) :
    ∀ g ∈ site.mark, continuesIdentifier g = true := by
  intro g member
  simp only [mark, List.mem_append] at member
  rcases member with ((word | line) | digits) | line
  · exact continuesIdentifier_of_isAlphanumeric (isAlphanumeric_of_isPlainName plain g word)
  · rw [List.mem_singleton.mp line]
    decide
  · obtain ⟨c, rfl, digit⟩ := Numeral.isDigit_of_mem_decimal digits
    simp [continuesIdentifier, Char.isAlphanum, digit]
  · rw [List.mem_singleton.mp line]
    decide

/-- A mark and a plain name make an identifier. -/
theorem isIdentifier_mark_append {site : CallSite} {name : Text}
    (plainSite : isPlainName site.name = true) (plain : isPlainName name = true) :
    isIdentifier (site.mark ++ name) = true := by
  have continues : ∀ g ∈ site.mark ++ name, continuesIdentifier g = true := by
    intro g member
    rcases List.mem_append.mp member with inMark | inName
    · exact continuesIdentifier_of_mem_mark plainSite g inMark
    · exact continuesIdentifier_of_isAlphanumeric (isAlphanumeric_of_isPlainName plain g inName)
  obtain ⟨siteName, lineNo⟩ := site
  cases siteName with
  | nil => cases plainSite
  | cons g rest =>
    cases g with
    | stray b => cases plainSite
    | scalar c =>
      simp only [isPlainName, Bool.and_eq_true] at plainSite
      simp only [mark, List.cons_append, List.mem_cons, forall_eq_or_imp] at continues
      simp only [mark, List.cons_append, isIdentifier, Bool.and_eq_true, List.all_eq_true]
      exact ⟨by simp [startsIdentifier, plainSite.1], continues.2⟩

end CallSite

/-! ### Lines -/

/-- A line from which no label is taken off: there is none, or it is no identifier. -/
def Unlabelled (line : Text) : Prop :=
  ∀ name rest, takeLabel? line = some (name, rest) → isIdentifier name = false

/-- A source line that defines no label, whatever the equates are. -/
def DefinesNone [Interpreter] (line : Text) : Prop :=
  ∀ equates replaced, replaceExpressions equates (replaceCharacters line) = .ok replaced →
    Unlabelled (Text.trim replaced)

/-- The local labels that a line of a macro body defines, each written `@name:`. The line defines
no others, wherever the macro is called. -/
inductive DefinesLocals [Interpreter] : Text → List Text → Prop
  | none {line : Text}
      (unlabelled : ∀ site : CallSite, isPlainName site.name = true →
        DefinesNone (localise site.mark line)) : DefinesLocals line []
  | label {name : Text} (gap : Core.Gap) {rest : Text} {names : List Text}
      (plain : isPlainName name = true) (others : DefinesLocals rest names) :
      DefinesLocals (.scalar '@' :: (name ++ .scalar ':' :: (gap.text ++ rest))) (name :: names)

/-- Source lines all of whose labels are local: macros have plain names, lines outside of macro
bodies define no label, and lines of macro bodies define local labels, of which no two of one body
have the same name. `body` holds the names of the body that the first line stands in. -/
def OnlyLocalsFrom [Interpreter] : Option (List Text) → List Text → Prop
  | _, [] => True
  | body, raw :: rest =>
    let line := stripComment raw
    let words := Text.fields line
    if words.head? = some (Text.ofString ".macro") then
      (∀ name ∈ words[1]?, isPlainName name = true) ∧ OnlyLocalsFrom (some []) rest
    else if words.head? = some (Text.ofString ".endm") then OnlyLocalsFrom none rest
    else
      match body with
      | none => DefinesNone line ∧ OnlyLocalsFrom none rest
      | some names =>
        ∃ new, DefinesLocals line new ∧ (names ++ new).Nodup ∧
          OnlyLocalsFrom (some (names ++ new)) rest

/-- Source texts all of whose labels are local. -/
def OnlyLocals [Interpreter] (source : Text) : Prop :=
  OnlyLocalsFrom none (Lines.ofText source).lines

/-! ### Labels after substitution -/

/-- The labels that are taken off a line, one after another. -/
inductive TakesOff : List Text → Text → Prop
  | none {line : Text} (unlabelled : Unlabelled line) : TakesOff [] line
  | label {line name rest : Text} {labels : List Text}
      (taken : takeLabel? line = some (name, rest)) (identifier : isIdentifier name = true)
      (others : TakesOff labels rest) : TakesOff (name :: labels) line

theorem inWord_of_isIdentifier {name : Text} (h : isIdentifier name = true) :
    ∀ g ∈ name, Core.inWord g = true := by
  intro g member
  cases name with
  | nil => cases h
  | cons first rest =>
    simp only [isIdentifier, Bool.and_eq_true, List.all_eq_true] at h
    refine Core.inWord_of_continuesIdentifier ?_
    rcases List.mem_cons.mp member with rfl | later
    · exact Core.continuesIdentifier_of_starts h.1
    · exact h.2 g later

section Front

variable {name : Text} (identifier : isIdentifier name = true) {gap : Text}
  (blank : ∀ g ∈ gap, g.isPlainBlank = true) (behind : Text)

include identifier blank

/-- An identifier before a colon is taken off as a label. -/
theorem takeLabel?_identifier :
    takeLabel? (name ++ (gap ++ .scalar ':' :: behind)) = some (name, Text.trim behind) := by
  have nonempty : name ≠ [] := by
    rintro rfl
    cases identifier
  have stops : ∀ g ∈ (gap ++ .scalar ':' :: behind).head?,
      g.isPlainBlank = true ∨ g = .scalar ':' := by
    cases gap with
    | nil => simp
    | cons g gap => simpa using .inl (blank g List.mem_cons_self)
  have colon : Glyph.isPlainBlank (.scalar ':') = false := by decide
  rw [Core.takeLabel?_append (inWord_of_isIdentifier identifier) blank stops (by simpa using colon)]
  simp [nonempty]

/-- So it is once the line is trimmed. -/
theorem takeLabel?_trim_identifier :
    takeLabel? (Text.trim (name ++ (gap ++ .scalar ':' :: behind))) =
      some (name, Text.trim behind) := by
  have begins : ∀ g ∈ (name ++ gap ++ [Glyph.scalar ':']).head?, g.isBlank = false := by
    intro g first
    cases name with
    | nil => cases identifier
    | cons k rest =>
      cases first
      exact Core.isBlank_of_inWord (inWord_of_isIdentifier identifier _ List.mem_cons_self)
  rw [← List.append_assoc, Text.trim_append_stop _ _ begins (by decide), List.append_assoc,
    takeLabel?_identifier identifier blank, Text.trim_rdropWhile]

end Front

/-- What is taken off a line as a label stands before a colon, with blanks between. -/
theorem exists_of_takeLabel? {line name rest : Text} (h : takeLabel? line = some (name, rest)) :
    ∃ gap behind, (∀ g ∈ gap, g.isPlainBlank = true) ∧
      line = name ++ (gap ++ .scalar ':' :: behind) := by
  simp only [takeLabel?] at h
  split at h
  · rename_i behind found
    split at h
    · cases h
    · obtain ⟨rfl, -⟩ := Prod.mk.inj (Option.some.inj h)
      have blanks : ∀ t : Text, t.dropWhile Glyph.isPlainBlank = .scalar ':' :: behind →
          ∃ gap, (∀ g ∈ gap, g.isPlainBlank = true) ∧ t = gap ++ .scalar ':' :: behind := by
        intro t dropped
        refine ⟨t.takeWhile Glyph.isPlainBlank, fun g => List.mem_takeWhile_imp, ?_⟩
        rw [← dropped, List.takeWhile_append_dropWhile]
      obtain ⟨gap, blank, cut⟩ := blanks _ found
      refine ⟨gap, behind, blank, ?_⟩
      rw [← cut, List.takeWhile_append_dropWhile]
  · cases h

/-- A line has no label at its front if it has none once it is trimmed. -/
theorem unlabelled_of_trim {line : Text} (h : Unlabelled (Text.trim line)) : Unlabelled line := by
  intro name rest taken
  obtain ⟨gap, behind, blank, rfl⟩ := exists_of_takeLabel? taken
  by_contra named
  have identifier : isIdentifier name = true := by simpa using named
  have refused := h name _ (takeLabel?_trim_identifier identifier blank behind)
  exact named refused

/-! ### Substitution in a line of a macro body -/

theorem replaceCharacters_cons {g : Glyph} (h : g ≠ .scalar '\'') (t : Text) :
    replaceCharacters (g :: t) = g :: replaceCharacters t := by
  rw [replaceCharacters]
  · exact fun k rest quote _ => h quote
  · exact fun k rest quote _ => h quote

theorem replaceCharacters_append {w : Text} (h : .scalar '\'' ∉ w) (t : Text) :
    replaceCharacters (w ++ t) = w ++ replaceCharacters t := by
  induction w with
  | nil => rfl
  | cons g w ih =>
    simp only [List.mem_cons, not_or] at h
    rw [List.cons_append, replaceCharacters_cons (Ne.symm h.1), ih h.2, List.cons_append]

theorem exists_replaceExpressions_append [Interpreter] {equates : Dictionary Text}
    {w t replaced : Text} (absent : .scalar '$' ∉ w) (h : replaceExpressions equates (w ++ t) = .ok replaced) :
    ∃ behind, replaceExpressions equates t = .ok behind ∧ replaced = w ++ behind := by
  have plain : ∀ g ∈ w, decide (g = .scalar '$') = false := by
    intro g member
    exact decide_eq_false fun same => absent (same ▸ member)
  simp only [replaceExpressions, Text.pieces_append_of_neg t plain] at h ⊢
  split at h
  · cases h
  · cases h
    exact ⟨_, rfl, by simp⟩

theorem localise_append (mark v w : Text) :
    localise mark (v ++ w) = localise mark v ++ localise mark w :=
  List.flatMap_append

theorem mem_localise {mark line : Text} {g : Glyph} (h : g ∈ localise mark line) :
    g ∈ mark ∨ g ∈ line := by
  obtain ⟨k, member, replaced⟩ := List.mem_flatMap.mp h
  split at replaced
  · exact .inl replaced
  · rw [List.mem_singleton.mp replaced]
    exact .inr member

theorem localise_eq_self (mark : Text) {w : Text} (h : .scalar '@' ∉ w) : localise mark w = w := by
  have kept : ∀ g ∈ w, (if g = Glyph.scalar '@' then mark else [g]) = [g] := by
    intro g member
    rw [if_neg]
    rintro rfl
    exact h member
  rw [localise, List.flatMap_congr kept, List.flatMap_singleton']

/-- The labels of a line of a macro body in an expansion: the local labels behind the mark of the
call. -/
theorem DefinesLocals.takesOff [Interpreter] {line : Text} {names : List Text}
    (defines : DefinesLocals line names) (site : CallSite)
    (plainSite : isPlainName site.name = true) {equates : Dictionary Text} {replaced : Text}
    (h : replaceExpressions equates (replaceCharacters (localise site.mark line)) = .ok replaced) :
    TakesOff (names.map (site.mark ++ ·)) replaced ∧
      TakesOff (names.map (site.mark ++ ·)) (Text.trim replaced) := by
  induction defines generalizing replaced with
  | none unlabelled =>
    have trimmed := unlabelled site plainSite equates replaced h
    exact ⟨.none (unlabelled_of_trim trimmed), .none trimmed⟩
  | @label name gap rest names plain others ih =>
    have identifier := CallSite.isIdentifier_mark_append plainSite plain
    have word := inWord_of_isIdentifier identifier
    have front : ∀ g ∈ site.mark ++ name ++ .scalar ':' :: gap.text, Core.inBody g = true := by
      intro g member
      rcases List.mem_append.mp member with inName | later
      · exact Core.inBody_of_inWord (word g inName)
      · rcases List.mem_cons.mp later with rfl | inGap
        · decide
        · exact gap.inBody g inGap
    have quote : .scalar '\'' ∉ site.mark ++ name ++ .scalar ':' :: gap.text :=
      fun member => Core.ne_of_inBody (front _ member) (by decide) rfl
    have dollar : .scalar '$' ∉ site.mark ++ name ++ .scalar ':' :: gap.text :=
      fun member => Core.ne_of_inBody (front _ member) (by decide) rfl
    have at_not_mem : .scalar '@' ∉ name ++ .scalar ':' :: gap.text := by
      simp only [List.mem_append, List.mem_cons, not_or]
      refine ⟨fun member => ?_, by decide, fun member => ?_⟩
      · exact ne_of_isAlphanumeric (isAlphanumeric_of_isPlainName plain _ member) (by decide) rfl
      · rcases gap.blank _ member with same | same <;> cases same
    have localised :
        localise site.mark (.scalar '@' :: (name ++ .scalar ':' :: (gap.text ++ rest))) =
          site.mark ++ name ++ .scalar ':' :: gap.text ++ localise site.mark rest := by
      have split : (.scalar '@' :: (name ++ .scalar ':' :: (gap.text ++ rest)) : Text) =
          [.scalar '@'] ++ (name ++ .scalar ':' :: gap.text) ++ rest := by simp
      rw [split, localise_append, localise_append, localise_eq_self _ at_not_mem]
      simp [localise]
    rw [localised, replaceCharacters_append quote] at h
    obtain ⟨behind, replacedRest, rfl⟩ := exists_replaceExpressions_append dollar h
    obtain ⟨-, trimmed⟩ := ih replacedRest
    have written : site.mark ++ name ++ .scalar ':' :: gap.text ++ behind =
        (site.mark ++ name) ++ ([] ++ .scalar ':' :: (gap.text ++ behind)) := by simp
    have trimmedGap : Text.trim (gap.text ++ behind) = Text.trim behind :=
      Text.trim_blank_append behind gap.isBlank
    rw [written]
    constructor
    · refine .label (takeLabel?_identifier identifier (by simp) _) identifier ?_
      rwa [trimmedGap]
    · refine .label (takeLabel?_trim_identifier identifier (by simp) _) identifier ?_
      rwa [trimmedGap]

end Assembly

end StackMachine
