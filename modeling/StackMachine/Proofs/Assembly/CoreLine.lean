import StackMachine.Proofs.Assembly.CoreWords
import StackMachine.Proofs.Text.Cutting

/-!
# The lines of the core language

How the assembler cuts a line of the core language. Nothing in it is replaced, its
comment and the blanks around it are lost, its labels are taken off one after another,
and what is left are the words of its instruction.

## Main results

* `Core.Line.stripComment_text`: a line without its comment.
* `Core.Line.replaceExpressions_body`: nothing in a line is replaced.
* `Core.takeLabel?_label`, `Core.Line.takeLabel?_ending`: the labels of a line.
* `Core.Line.fields_ending`: the words of a line behind its labels.
-/

namespace StackMachine

namespace Core

open Assembly

/-! ### Glyphs of a line -/

theorem isBlank_of_inWord {g : Glyph} (h : inWord g = true) : g.isBlank = false := by
  cases g with
  | stray b => rfl
  | scalar c =>
    simp only [inWord, Bool.and_eq_true, Bool.not_eq_true'] at h
    exact h.1.1.1.1

theorem ne_of_inWord {g k : Glyph} (h : inWord g = true) (hk : inWord k = false) : g ≠ k := by
  rintro rfl
  rw [h] at hk
  cases hk

/-- What ends a word does not stand in one. -/
theorem not_mem_of_inWord {t : Text} (word : ∀ g ∈ t, inWord g = true) {k : Glyph}
    (hk : inWord k = false) : k ∉ t :=
  fun member => ne_of_inWord (word k member) hk rfl

theorem isBlank_of_isPlainBlank {g : Glyph} (h : g.isPlainBlank = true) : g.isBlank = true := by
  cases g with
  | stray b => cases h
  | scalar c =>
    simp only [Glyph.isPlainBlank, Bool.or_eq_true, beq_iff_eq] at h
    rcases h with (((rfl | rfl) | rfl) | rfl) | rfl <;> decide

theorem isPlainBlank_of_inWord {g : Glyph} (h : inWord g = true) : g.isPlainBlank = false := by
  have solid := isBlank_of_inWord h
  by_contra plain
  rw [isBlank_of_isPlainBlank (by simpa using plain)] at solid
  cases solid

namespace Gap

variable (gap : Gap)

theorem isPlainBlank : ∀ g ∈ gap.text, g.isPlainBlank = true := by
  intro g hg
  rcases gap.blank g hg with rfl | rfl <;> decide

theorem isBlank : ∀ g ∈ gap.text, g.isBlank = true :=
  fun g hg => isBlank_of_isPlainBlank (gap.isPlainBlank g hg)

end Gap

theorem Digits.inWord {base : Nat} (marked : IsBase base) (ds : Digits base) :
    ∀ g ∈ ds.text, inWord g = true := by
  simp only [Digits.text, List.forall_mem_map]
  exact fun d _ => inWord_of_isAlphanum (isAlphanum_char marked d)

theorem Number.inWord (n : Number) : ∀ g ∈ n.text, inWord g = true := by
  cases n with
  | decimal sign digits =>
    have signs : ∀ g ∈ sign.text, Core.inWord g = true := by cases sign <;> decide
    exact List.forall_mem_append.mpr ⟨signs, digits.inWord (by decide)⟩
  | hexadecimal capital digits =>
    have mark : Core.inWord (.scalar (if capital then 'X' else 'x')) = true := by
      cases capital <;> decide
    exact List.forall_mem_cons.mpr
      ⟨by decide, List.forall_mem_cons.mpr ⟨mark, digits.inWord (by decide)⟩⟩
  | binary capital digits =>
    have mark : Core.inWord (.scalar (if capital then 'B' else 'b')) = true := by
      cases capital <;> decide
    exact List.forall_mem_cons.mpr
      ⟨by decide, List.forall_mem_cons.mpr ⟨mark, digits.inWord (by decide)⟩⟩

theorem Operand.inWord (o : Operand) : ∀ g ∈ o.text, inWord g = true := by
  have inner : ∀ g ∈ o.term.text, Core.inWord g = true := by
    cases o.term with
    | number n => exact n.inWord
    | name label => exact label.inWord
  unfold Operand.text
  split
  · simp only [List.forall_mem_cons, List.forall_mem_append]
    exact ⟨by decide, inner, by decide⟩
  · exact inner

theorem Operand.text_ne_nil (o : Operand) : o.text ≠ [] := by
  obtain ⟨g, rest, text, -⟩ := o.term.exists_text
  unfold Operand.text
  split <;> simp [text]

namespace Instruction

variable (i : Instruction)

theorem inWord_mnemonic : ∀ g ∈ i.mnemonic, inWord g = true := by
  simp only [mnemonic, List.forall_mem_map]
  exact fun c hc => inWord_of_isAlphanum (by simp [Char.isAlphanum, i.isAlpha_letters c hc])

theorem mnemonic_ne_nil : i.mnemonic ≠ [] := by
  obtain ⟨g, rest, text, -⟩ := i.exists_mnemonic
  simp [text]

end Instruction

/-- A glyph that can stand in a line before its comment. -/
def inBody (g : Glyph) : Bool :=
  inWord g || g = .scalar ' ' || g = .scalar '\t' || g = .scalar ':'

theorem ne_of_inBody {g k : Glyph} (h : inBody g = true) (hk : inBody k = false) : g ≠ k := by
  rintro rfl
  rw [h] at hk
  cases hk

theorem inBody_of_inWord {g : Glyph} (h : inWord g = true) : inBody g = true := by
  simp [inBody, h]

theorem Gap.inBody (gap : Gap) : ∀ g ∈ gap.text, inBody g = true := by
  intro g hg
  rcases gap.blank g hg with rfl | rfl <;> decide

theorem Instruction.inBody (i : Instruction) : ∀ g ∈ i.text, inBody g = true := by
  unfold Instruction.text
  cases i.argument with
  | none => simpa using fun g hg => inBody_of_inWord (i.inWord_mnemonic g hg)
  | some a =>
    simp only [Option.map_some, Option.getD_some, Argument.text, List.forall_mem_append]
    exact ⟨fun g hg => inBody_of_inWord (i.inWord_mnemonic g hg), a.gap.inBody,
      fun g hg => inBody_of_inWord (a.operand.inWord g hg)⟩

theorem Label.inBody (l : Label) : ∀ g ∈ l.text, inBody g = true := by
  simp only [Label.text, List.forall_mem_append, List.forall_mem_cons]
  exact ⟨⟨fun g hg => inBody_of_inWord (l.name.inWord g hg), l.before.inBody⟩, by decide,
    l.after.inBody⟩

namespace Line

variable (line : Line)

theorem inBody_body : ∀ g ∈ line.body, inBody g = true := by
  simp only [body, ending, List.forall_mem_append, List.mem_flatMap]
  refine ⟨line.indent.inBody, ?_, ?_, line.trailing.inBody⟩
  · rintro g ⟨l, -, hg⟩
    exact l.inBody g hg
  · cases line.instruction with
    | none => simp
    | some i => exact i.inBody

theorem feed_not_mem_text : .scalar '\n' ∉ line.text := by
  intro member
  rcases List.mem_append.mp member with inside | behind
  · exact ne_of_inBody (line.inBody_body _ inside) (by decide) rfl
  · cases h : line.comment with
    | none => simp [h] at behind
    | some c =>
      simp only [h, Option.map_some, Option.getD_some, Comment.text, List.mem_cons] at behind
      rcases behind with same | content
      · cases same
      · exact c.oneLine content

/-! ### Comments and replacements -/

theorem upTo_body_append (behind : Text) :
    Text.upTo (.scalar ';') (line.body ++ .scalar ';' :: behind) = line.body := by
  have whole : ∀ g ∈ line.body, decide (g ≠ .scalar ';') = true := by
    intro g hg
    exact decide_eq_true (ne_of_inBody (line.inBody_body g hg) (by decide))
  rw [Text.upTo, List.takeWhile_append_of_pos whole]
  simp

theorem dropReturn_body : Lines.dropReturn line.body = line.body := by
  rw [Lines.dropReturn, if_neg]
  intro last
  exact ne_of_inBody (line.inBody_body _ (List.mem_of_getLast? last)) (by decide) rfl

theorem exists_dropReturn_comment (c : Comment) :
    ∃ behind, Lines.dropReturn (line.body ++ c.text) = line.body ++ .scalar ';' :: behind := by
  unfold Lines.dropReturn
  split
  · rename_i last
    have nonempty : c.content ≠ [] := by
      intro empty
      simp [Comment.text, empty] at last
    refine ⟨c.content.dropLast, ?_⟩
    rw [List.dropLast_append_of_ne_nil (by simp [Comment.text]), Comment.text,
      List.dropLast_cons_of_ne_nil nonempty]
  · exact ⟨c.content, rfl⟩

/-- A line without its comment is what was written before it, without the blanks around it. -/
theorem stripComment_text : stripComment (Lines.dropReturn line.text) = Text.trim line.body := by
  unfold stripComment Line.text
  cases line.comment with
  | none =>
    have whole : ∀ g ∈ line.body, decide (g ≠ .scalar ';') = true := by
      intro g hg
      exact decide_eq_true (ne_of_inBody (line.inBody_body g hg) (by decide))
    simp only [Option.map_none, Option.getD_none, List.append_nil, dropReturn_body, Text.upTo]
    rw [List.takeWhile_eq_self_iff.mpr whole]
  | some c =>
    obtain ⟨behind, text⟩ := exists_dropReturn_comment line c
    simp only [Option.map_some, Option.getD_some, text, upTo_body_append]

end Line

theorem replaceCharacters_eq_self {t : Text} (h : .scalar '\'' ∉ t) : replaceCharacters t = t := by
  fun_induction replaceCharacters t with
  | case1 rest | case2 g rest | case3 rest | case4 g rest => simp at h
  | case5 g rest _ _ ih => rw [ih fun member => h (List.mem_cons_of_mem g member)]
  | case6 => rfl

theorem replaceExpressions_eq_self [Interpreter] (equates : Dictionary Text) {t : Text}
    (h : .scalar '$' ∉ t) : replaceExpressions equates t = .ok t := by
  have whole : ∀ g ∈ t, decide (g = .scalar '$') = false := by
    intro g hg
    exact decide_eq_false fun same => h (same ▸ hg)
  simp [replaceExpressions, Text.pieces_of_neg whole, lastFailure?, successes]

/-- Nothing in a line is replaced. -/
theorem Line.replaceExpressions_body [Interpreter] (line : Line) (equates : Dictionary Text) :
    replaceExpressions equates (replaceCharacters (Text.trim line.body)) =
      .ok (Text.trim line.body) := by
  have inside : ∀ g ∈ Text.trim line.body, inBody g = true :=
    fun g hg => line.inBody_body g (Text.mem_of_mem_trim hg)
  have quote : .scalar '\'' ∉ Text.trim line.body :=
    fun member => ne_of_inBody (inside _ member) (by decide) rfl
  have dollar : .scalar '$' ∉ Text.trim line.body :=
    fun member => ne_of_inBody (inside _ member) (by decide) rfl
  rw [replaceCharacters_eq_self quote, replaceExpressions_eq_self equates dollar]

/-! ### Labels -/

section Labels

variable {w gap rest : Text}

/-- A name ends at a blank or a colon, and the blanks behind it end where they end. -/
theorem takeLabel?_append (word : ∀ g ∈ w, inWord g = true)
    (blank : ∀ g ∈ gap, g.isPlainBlank = true)
    (stops : ∀ g ∈ (gap ++ rest).head?, g.isPlainBlank = true ∨ g = .scalar ':')
    (solid : ∀ g ∈ rest.head?, g.isPlainBlank = false) :
    takeLabel? (w ++ (gap ++ rest)) =
      match (motive := Text → Option (Text × Text)) rest with
      | .scalar ':' :: behind => if w.isEmpty then none else some (w, Text.trim behind)
      | _ => none := by
  have inName : ∀ g ∈ w, (!g.isPlainBlank && decide (g ≠ .scalar ':')) = true := by
    intro g hg
    have colon : g ≠ .scalar ':' := ne_of_inWord (word g hg) (by decide)
    simp [isPlainBlank_of_inWord (word g hg), colon]
  have ends : ∀ g ∈ (gap ++ rest).head?,
      (!g.isPlainBlank && decide (g ≠ .scalar ':')) = false := by
    intro g hg
    rcases stops g hg with plain | rfl
    · simp [plain]
    · decide
  obtain ⟨name, behindName⟩ := Text.takeWhile_append_stop inName ends
  obtain ⟨-, behindGap⟩ := Text.takeWhile_append_stop blank solid
  simp only [takeLabel?, name, behindName, behindGap]
  rfl

theorem takeLabel?_eq_none (word : ∀ g ∈ w, inWord g = true)
    (blank : ∀ g ∈ gap, g.isPlainBlank = true)
    (stops : ∀ g ∈ (gap ++ rest).head?, g.isPlainBlank = true ∨ g = .scalar ':')
    (solid : ∀ g ∈ rest.head?, g.isPlainBlank = false ∧ g ≠ .scalar ':') :
    takeLabel? (w ++ (gap ++ rest)) = none := by
  rw [takeLabel?_append word blank stops fun g hg => (solid g hg).1]
  split
  · exact absurd rfl (solid _ rfl).2
  · rfl

end Labels

/-- A line that begins with a label keeps it when it is trimmed. -/
theorem trim_label (l : Label) (behind : Text) :
    Text.trim (l.text ++ behind) =
      l.name.text ++ (l.before.text ++
        .scalar ':' :: (l.after.text ++ behind).rdropWhile Glyph.isBlank) := by
  obtain ⟨g, rest, name, -⟩ := l.name.exists_text
  have solid : g.isBlank = false := isBlank_of_inWord (l.name.inWord g (by simp [name]))
  have text : l.text ++ behind =
      (l.name.text ++ l.before.text) ++ .scalar ':' :: (l.after.text ++ behind) := by
    simp [Label.text]
  have begins : ∀ k ∈ (l.name.text ++ l.before.text ++ [Glyph.scalar ':']).head?,
      k.isBlank = false := by
    simpa [name] using solid
  rw [text, Text.trim_append_stop _ _ begins (by decide), List.append_assoc]

/-- The label at the front of a line is taken off. -/
theorem takeLabel?_label (l : Label) (behind : Text) :
    takeLabel? (Text.trim (l.text ++ behind)) = some (l.name.text, Text.trim behind) := by
  have stops : ∀ k ∈ (l.before.text ++ .scalar ':' ::
      (l.after.text ++ behind).rdropWhile Glyph.isBlank).head?,
      k.isPlainBlank = true ∨ k = .scalar ':' := by
    cases h : l.before.text with
    | nil => simp
    | cons k gap => simpa using .inl (l.before.isPlainBlank k (by simp [h]))
  have colon : Glyph.isPlainBlank (.scalar ':') = false := by decide
  rw [trim_label,
    takeLabel?_append l.name.inWord l.before.isPlainBlank stops (by simpa using colon)]
  simp only [List.isEmpty_iff, l.name.text_ne_nil, if_false, Text.trim_rdropWhile,
    Text.trim_blank_append behind l.after.isBlank]

/-! ### Instructions -/

namespace Instruction

variable (i : Instruction)

/-- An instruction begins and ends with glyphs that are no blanks. -/
theorem trim_text : Text.trim i.text = i.text := by
  have front := i.inWord_mnemonic
  have nonempty := i.mnemonic_ne_nil
  have begins : ∀ k ∈ i.text.head?, k.isBlank = false := by
    intro k hk
    rw [text, List.head?_append_of_ne_nil _ nonempty] at hk
    exact isBlank_of_inWord (front k (List.mem_of_mem_head? hk))
  have ends : ∀ k ∈ i.text.getLast?, k.isBlank = false := by
    intro k hk
    unfold text at hk
    cases h : i.argument with
    | none =>
      simp only [h, Option.map_none, Option.getD_none, List.append_nil] at hk
      exact isBlank_of_inWord (front k (List.mem_of_getLast? hk))
    | some a =>
      simp only [h, Option.map_some, Option.getD_some, Argument.text] at hk
      rw [← List.append_assoc, List.getLast?_append_of_ne_nil _ a.operand.text_ne_nil] at hk
      exact isBlank_of_inWord (a.operand.inWord k (List.mem_of_getLast? hk))
  exact Text.trim_word (by simp [text, nonempty]) begins ends

/-- No label stands at the front of an instruction. -/
theorem takeLabel?_text : takeLabel? i.text = none := by
  unfold text
  cases i.argument with
  | none =>
    have bare :=
      @takeLabel?_eq_none i.mnemonic [] [] i.inWord_mnemonic (by simp) (by simp) (by simp)
    simpa using bare
  | some a =>
    refine takeLabel?_eq_none i.inWord_mnemonic a.gap.isPlainBlank ?_ ?_
    · intro g hg
      rw [List.head?_append_of_ne_nil _ a.apart] at hg
      exact .inl (a.gap.isPlainBlank g (List.mem_of_mem_head? hg))
    · intro g hg
      have word := a.operand.inWord g (List.mem_of_mem_head? hg)
      exact ⟨isPlainBlank_of_inWord word, ne_of_inWord word (by decide)⟩

/-- The words of an instruction are its mnemonic and its operand. -/
theorem fields_text : Text.fields i.text = i.words := by
  have solid : ∀ g ∈ i.mnemonic, g.isBlank = false :=
    fun g hg => isBlank_of_inWord (i.inWord_mnemonic g hg)
  unfold text words
  cases i.argument with
  | none => simpa using Text.fields_word i.mnemonic_ne_nil solid
  | some a =>
    have operand : ∀ g ∈ a.operand.text, g.isBlank = false :=
      fun g hg => isBlank_of_inWord (a.operand.inWord g hg)
    simp only [Option.map_some, Option.getD_some, Argument.text, Option.toList_some]
    rw [← List.append_assoc, Text.fields_word_gap _ i.mnemonic_ne_nil solid a.apart a.gap.isBlank,
      Text.fields_word a.operand.text_ne_nil operand]

end Instruction

namespace Line

variable (line : Line)

theorem trim_ending :
    Text.trim line.ending = (line.instruction.map Instruction.text).getD [] := by
  rw [ending, Text.trim_append_blank _ line.trailing.isBlank]
  cases line.instruction with
  | none => rfl
  | some i => exact i.trim_text

/-- No label stands at the front of what follows the labels. -/
theorem takeLabel?_ending : takeLabel? (Text.trim line.ending) = none := by
  rw [trim_ending]
  cases line.instruction with
  | none => rfl
  | some i => exact i.takeLabel?_text

/-- What follows the labels of a line are the words of its instruction. -/
theorem fields_ending :
    Text.fields (Text.trim line.ending) = (line.instruction.map Instruction.words).getD [] := by
  rw [trim_ending]
  cases line.instruction with
  | none => rfl
  | some i => exact i.fields_text

theorem trim_body :
    Text.trim line.body = Text.trim (line.labels.flatMap Label.text ++ line.ending) :=
  Text.trim_blank_append _ line.indent.isBlank

/-- The first word of a line begins as an identifier does, so it is no directive. -/
theorem head?_fields_body (word : Text)
    (h : (Text.fields (Text.trim line.body)).head? = some word) :
    ∃ g rest, word = g :: rest ∧ startsIdentifier g = true := by
  rw [trim_body] at h
  cases labels : line.labels with
  | cons l others =>
    obtain ⟨g, rest, name, starts, -⟩ := l.name.exists_text
    have solid : g.isBlank = false := isBlank_of_inWord (l.name.inWord g (by simp [name]))
    rw [labels, List.flatMap_cons, List.append_assoc, trim_label, name, List.cons_append] at h
    obtain ⟨w, later, fields⟩ := Text.exists_fields_cons _ solid
    rw [fields] at h
    cases h
    exact ⟨g, w, rfl, starts⟩
  | nil =>
    rw [labels, List.flatMap_nil, List.nil_append, fields_ending] at h
    cases instruction : line.instruction with
    | none =>
      rw [instruction] at h
      cases h
    | some i =>
      rw [instruction] at h
      cases h
      exact i.exists_mnemonic

end Line

end Core

end StackMachine
