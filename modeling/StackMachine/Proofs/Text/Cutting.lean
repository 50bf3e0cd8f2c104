import Mathlib.Data.List.DropRight
import StackMachine.Text.Blank
import StackMachine.Text.Lines

/-!
# Cutting and trimming text

What cutting a text into words and lines gives when it is known how the text was put
together: blanks at the ends are lost, words that were written with blanks between them
come back, and so do lines that were joined by line feeds.

## Main results

* `Text.cut_first_inj`, `Text.cut_last_inj`: what stands around the first or last occurrence of a
  glyph.
* `Text.trim_blank_append`, `Text.trim_append_blank`: blanks at the ends do not count.
* `Text.trim_append_stop`: a text with something to stop at keeps what stands before it.
* `Text.fields_word`, `Text.fields_word_gap`: the words of a text.
* `Lines.split_join`, `Lines.raw_join`: the lines of joined lines.
* `Lines.raw_flatMap_line`: the lines of lines with a line feed behind each.
* `Lines.ofText_append`, `Lines.length_lines`: the lines of one text behind another, and their
  number.
* `Text.infix_of_mem_fields`, `Lines.infix_of_mem_ofText`: words and lines are parts of the text.
-/

namespace StackMachine

namespace Text

variable {p : Glyph → Bool} {g : Glyph} {t w gap : Text}

/-! ### Fronts -/

/-- A front of glyphs of one kind ends where another kind begins. -/
theorem takeWhile_append_stop (h : ∀ g ∈ w, p g = true) (stops : ∀ g ∈ t.head?, p g = false) :
    (w ++ t).takeWhile p = w ∧ (w ++ t).dropWhile p = t := by
  rw [List.takeWhile_append_of_pos h, List.dropWhile_append_of_pos h]
  cases t with
  | nil => simp
  | cons g rest => simp [stops g (by simp)]

/-- What stands before and behind the first occurrence of a glyph. -/
theorem cut_first_inj {v s : Text} (hv : g ∉ v) (hw : g ∉ w) (h : v ++ g :: s = w ++ g :: t) :
    v = w ∧ s = t := by
  have front : ∀ {u : Text} (r : Text), g ∉ u →
      (u ++ g :: r).takeWhile (· ≠ g) = u ∧ (u ++ g :: r).dropWhile (· ≠ g) = g :: r := by
    intro u r absent
    refine takeWhile_append_stop (fun k member => ?_) (by simp)
    exact decide_eq_true fun same => absent (same ▸ member)
  obtain ⟨frontV, backV⟩ := front s hv
  obtain ⟨frontW, backW⟩ := front t hw
  rw [h] at frontV backV
  exact ⟨frontV.symm.trans frontW, (List.cons.inj (backV.symm.trans backW)).2⟩

/-- What stands before and behind the last occurrence of a glyph. -/
theorem cut_last_inj {v s : Text} (hs : g ∉ s) (ht : g ∉ t) (h : v ++ g :: s = w ++ g :: t) :
    v = w ∧ s = t := by
  have reversed : s.reverse ++ g :: v.reverse = t.reverse ++ g :: w.reverse := by
    simpa using congrArg List.reverse h
  obtain ⟨behind, before⟩ := cut_first_inj (by simpa using hs) (by simpa using ht) reversed
  exact ⟨List.reverse_inj.mp before, List.reverse_inj.mp behind⟩

/-! ### Pieces -/

theorem pieces_cons_of_pos (t : Text) (h : p g = true) :
    pieces p (g :: t) = ([], (pieces p t).1 :: (pieces p t).2) := by
  simp [pieces, h]

theorem pieces_append_of_neg (t : Text) (h : ∀ g ∈ w, p g = false) :
    pieces p (w ++ t) = (w ++ (pieces p t).1, (pieces p t).2) := by
  induction w with
  | nil => rfl
  | cons g w ih =>
    have first := h g List.mem_cons_self
    have rest := ih fun k hk => h k (List.mem_cons_of_mem g hk)
    simp only [pieces, List.cons_append, List.foldr_cons, first] at rest ⊢
    rw [rest]
    rfl

theorem pieces_of_neg (h : ∀ g ∈ w, p g = false) : pieces p w = (w, []) := by
  have whole := pieces_append_of_neg [] h
  rw [List.append_nil] at whole
  simpa [pieces] using whole

theorem split_of_neg (h : ∀ g ∈ w, p g = false) : split p w = [w] := by
  simp [split, pieces_of_neg h]

theorem split_append_cons (t : Text) (h : ∀ g ∈ w, p g = false) (stop : p g = true) :
    split p (w ++ g :: t) = w :: split p t := by
  simp [split, pieces_append_of_neg _ h, pieces_cons_of_pos t stop]

theorem pieces_cons_of_neg (t : Text) (h : p g = false) :
    pieces p (g :: t) = (g :: (pieces p t).1, (pieces p t).2) := by
  simp [pieces, h]

theorem prefix_pieces (p : Glyph → Bool) (t : Text) : (pieces p t).1 <+: t := by
  induction t with
  | nil => exact List.prefix_rfl
  | cons g t ih =>
    cases cut : p g with
    | true => simp [pieces_cons_of_pos t cut]
    | false => simpa [pieces_cons_of_neg t cut] using ih

/-- Every piece is a part of the text. -/
theorem infix_of_mem_split (h : w ∈ split p t) : w <:+: t := by
  induction t generalizing w with
  | nil =>
    obtain rfl : w = [] := by simpa [split, pieces] using h
    exact List.infix_rfl
  | cons g t ih =>
    rcases List.mem_cons.mp h with rfl | later
    · exact (prefix_pieces p (g :: t)).isInfix
    · refine (ih ?_).trans (List.suffix_cons g t).isInfix
      cases cut : p g with
      | true => simpa [split, pieces_cons_of_pos t cut] using later
      | false =>
        rw [pieces_cons_of_neg t cut] at later
        exact List.mem_cons_of_mem _ later

theorem split_append (s t : Text) (stop : p g = true) :
    split p (s ++ g :: t) = split p s ++ split p t := by
  induction s with
  | nil => exact split_append_cons t (w := []) (by simp) stop
  | cons k s ih =>
    cases cut : p k with
    | true => simpa [split, pieces_cons_of_pos _ cut] using ih
    | false => simpa [split, pieces_cons_of_neg _ cut] using ih

theorem length_split (p : Glyph → Bool) (t : Text) : (split p t).length = t.countP p + 1 := by
  induction t with
  | nil => rfl
  | cons k t ih =>
    cases cut : p k with
    | true => simpa [split, pieces_cons_of_pos t cut, cut] using ih
    | false => simpa [split, pieces_cons_of_neg t cut, cut] using ih

/-- The later pieces stand behind a cut each. -/
theorem cons_infix_of_mem_pieces (h : w ∈ (pieces (· = g) t).2) : g :: w <:+: t := by
  induction t with
  | nil => cases h
  | cons k t ih =>
    cases cut : decide (k = g) with
    | true =>
      obtain rfl : k = g := of_decide_eq_true cut
      rw [pieces_cons_of_pos t cut] at h
      rcases List.mem_cons.mp h with rfl | later
      · exact ((List.prefix_cons_inj k).mpr (prefix_pieces _ t)).isInfix
      · exact (ih later).trans (List.suffix_cons k t).isInfix
    | false =>
      rw [pieces_cons_of_neg t cut] at h
      exact (ih h).trans (List.suffix_cons k t).isInfix

/-- The pieces with the cuts between them are the text. -/
theorem pieces_append_flatMap (g : Glyph) (t : Text) :
    (pieces (· = g) t).1 ++ (pieces (· = g) t).2.flatMap (g :: ·) = t := by
  induction t with
  | nil => rfl
  | cons k t ih =>
    cases cut : decide (k = g) with
    | true =>
      obtain rfl : k = g := of_decide_eq_true cut
      rw [pieces_cons_of_pos t cut]
      simpa using ih
    | false =>
      rw [pieces_cons_of_neg t cut]
      simpa using ih

/-- A glyph at which a text is not cut stands in one of its pieces. -/
theorem exists_mem_split (h : g ∈ t) (kept : p g = false) : ∃ w ∈ split p t, g ∈ w := by
  induction t with
  | nil => cases h
  | cons k t ih =>
    cases cut : p k with
    | true =>
      have other : g ∈ t := by
        rcases List.mem_cons.mp h with rfl | later
        · rw [cut] at kept
          cases kept
        · exact later
      obtain ⟨w, piece, member⟩ := ih other
      rw [split, pieces_cons_of_pos t cut]
      exact ⟨w, List.mem_cons_of_mem _ piece, member⟩
    | false =>
      rw [split, pieces_cons_of_neg t cut]
      rcases List.mem_cons.mp h with rfl | later
      · exact ⟨_, List.mem_cons_self, List.mem_cons_self⟩
      · obtain ⟨w, piece, member⟩ := ih later
        rcases List.mem_cons.mp piece with rfl | other
        · exact ⟨_, List.mem_cons_self, List.mem_cons_of_mem k member⟩
        · exact ⟨w, List.mem_cons_of_mem _ other, member⟩

/-! ### Words -/

/-- Every word is a part of the text. -/
theorem infix_of_mem_fields (h : w ∈ fields t) : w <:+: t :=
  infix_of_mem_split (List.mem_of_mem_filter h)

/-- A glyph that is no blank stands in one of the words. -/
theorem exists_mem_fields (h : g ∈ t) (solid : g.isBlank = false) : ∃ w ∈ fields t, g ∈ w := by
  obtain ⟨w, piece, member⟩ := exists_mem_split h solid
  refine ⟨w, List.mem_filter.mpr ⟨piece, ?_⟩, member⟩
  simpa using List.ne_nil_of_mem member

theorem fields_blank_append (t : Text) (h : ∀ g ∈ gap, g.isBlank = true) :
    fields (gap ++ t) = fields t := by
  induction gap with
  | nil => rfl
  | cons g gap ih =>
    have first := h g List.mem_cons_self
    have cut := split_append_cons (w := []) (gap ++ t) (by simp) first
    simp only [List.nil_append] at cut
    rw [← ih fun k hk => h k (List.mem_cons_of_mem g hk), List.cons_append, fields, cut]
    rfl

theorem fields_word (nonempty : w ≠ []) (h : ∀ g ∈ w, g.isBlank = false) : fields w = [w] := by
  simp [fields, split_of_neg h, nonempty]

theorem fields_word_gap (t : Text) (nonempty : w ≠ []) (h : ∀ g ∈ w, g.isBlank = false)
    (apart : gap ≠ []) (blank : ∀ g ∈ gap, g.isBlank = true) :
    fields (w ++ gap ++ t) = w :: fields t := by
  obtain ⟨g, rest, rfl⟩ := List.exists_cons_of_ne_nil apart
  have cut := split_append_cons (rest ++ t) h (blank g List.mem_cons_self)
  have others := fields_blank_append t fun k hk => blank k (List.mem_cons_of_mem g hk)
  rw [List.append_assoc, List.cons_append, fields, cut,
    List.filter_cons_of_pos (by simpa using nonempty), ← others, fields]

/-- The first word of a text that begins with no blank begins with the same glyph. -/
theorem exists_fields_cons (t : Text) (h : g.isBlank = false) :
    ∃ w rest, fields (g :: t) = (g :: w) :: rest := by
  have front := pieces_append_of_neg (w := [g]) t (by simpa using h)
  refine ⟨(pieces Glyph.isBlank t).1, ((pieces Glyph.isBlank t).2).filter (! ·.isEmpty), ?_⟩
  simp only [List.cons_append, List.nil_append] at front
  rw [fields, split, front, List.filter_cons_of_pos rfl]

/-! ### Trimming -/

theorem trim_blank_append (t : Text) (h : ∀ g ∈ gap, g.isBlank = true) :
    trim (gap ++ t) = trim t := by
  rw [trim, List.dropWhile_append_of_pos h, trim]

theorem rdropWhile_append_stop (front t : Text) (h : p g = false) :
    (front ++ g :: t).rdropWhile p = front ++ g :: t.rdropWhile p := by
  simp only [List.rdropWhile, List.reverse_append, List.reverse_cons, List.append_assoc,
    List.singleton_append, List.dropWhile_append]
  split
  · rename_i empty
    rw [List.isEmpty_iff.mp empty]
    simp [h]
  · simp

theorem trim_append_blank (t : Text) (h : ∀ g ∈ gap, g.isBlank = true) :
    trim (t ++ gap) = trim t := by
  have lost : gap.dropWhile Glyph.isBlank = [] := by simpa using h
  have reversed : ∀ g ∈ gap.reverse, g.isBlank = true := by simpa using h
  rw [trim, List.dropWhile_append, lost]
  split
  · rename_i empty
    rw [trim, List.isEmpty_iff.mp empty]
  · rw [List.reverse_append, List.dropWhile_append_of_pos reversed, trim]

/-- Trimming a text that begins with no blank keeps what stands up to a glyph that is no blank. -/
theorem trim_append_stop (front t : Text) (begins : ∀ k ∈ (front ++ [g]).head?, k.isBlank = false)
    (stop : g.isBlank = false) :
    trim (front ++ g :: t) = front ++ g :: t.rdropWhile Glyph.isBlank := by
  have kept : (front ++ g :: t).dropWhile Glyph.isBlank = front ++ g :: t := by
    cases front with
    | nil => simp [stop]
    | cons k rest => simp [begins k (by simp)]
  rw [← rdropWhile_append_stop front t stop, trim, kept, List.rdropWhile]

theorem trim_word (nonempty : w ≠ []) (begins : ∀ k ∈ w.head?, k.isBlank = false)
    (ends : ∀ k ∈ w.getLast?, k.isBlank = false) : trim w = w := by
  obtain ⟨front, g, rfl⟩ : ∃ front g, w = front ++ [g] :=
    ⟨w.dropLast, w.getLast nonempty, (List.dropLast_append_getLast nonempty).symm⟩
  have stop : g.isBlank = false := ends g (by simp)
  simpa using trim_append_stop front [] begins stop

theorem prefix_trim (t : Text) : trim t <+: t.dropWhile Glyph.isBlank := by
  rw [← List.reverse_suffix, trim, List.reverse_reverse]
  exact List.dropWhile_suffix _

theorem infix_trim (t : Text) : trim t <:+: t :=
  (prefix_trim t).isInfix.trans (List.dropWhile_suffix _).isInfix

/-- A text that is trimmed begins with no blank. -/
theorem isBlank_of_head?_trim (h : g ∈ (trim t).head?) : g.isBlank = false := by
  obtain ⟨ending, text⟩ := prefix_trim t
  have first : (t.dropWhile Glyph.isBlank).head? = some g :=
    text ▸ List.mem_head?_append_of_mem_head? h
  simpa [first] using List.head?_dropWhile_not Glyph.isBlank t

/-- A text that is trimmed begins as its first word does. -/
theorem head?_of_fields_trim {rest : List Text} (h : fields (trim t) = w :: rest) :
    (trim t).head? = w.head? := by
  cases text : trim t with
  | nil =>
    rw [text] at h
    cases h
  | cons g behind =>
    have solid : g.isBlank = false := isBlank_of_head?_trim (t := t) (by rw [text]; rfl)
    obtain ⟨v, others, words⟩ := exists_fields_cons behind solid
    rw [text, words] at h
    cases h
    rfl

theorem mem_of_mem_trim (h : g ∈ trim t) : g ∈ t :=
  (infix_trim t).subset h

theorem length_trim_le (t : Text) : (trim t).length ≤ t.length := by
  rw [trim, List.length_reverse]
  refine (List.dropWhile_sublist _).length_le.trans ?_
  rw [List.length_reverse]
  exact (List.dropWhile_sublist _).length_le

theorem trim_rdropWhile (t : Text) : trim (t.rdropWhile Glyph.isBlank) = trim t := by
  have blank : ∀ g ∈ t.rtakeWhile Glyph.isBlank, g.isBlank = true :=
    fun g hg => List.mem_rtakeWhile_imp hg
  rw [← trim_append_blank _ blank, List.rdropWhile_append_rtakeWhile]

/-! ### Joined texts -/

theorem join_cons_cons (sep first second : Text) (rest : List Text) :
    join sep (first :: second :: rest) = first ++ sep ++ join sep (second :: rest) := by
  simp [join]

/-- Lines with a line feed behind each are joined lines, of which the last is empty. -/
theorem join_append_nil (lines : List Text) :
    join "\n" (lines ++ [[]]) = lines.flatMap line := by
  induction lines with
  | nil => rfl
  | cons first rest ih =>
    cases rest with
    | nil => simp [join, line, ofString]
    | cons second rest =>
      rw [List.cons_append, List.cons_append, join_cons_cons, ← List.cons_append, ih]
      rfl

end Text

/-! ### Lines -/

namespace Lines

private theorem isFeed_eq_false {line : Text} (h : .scalar '\n' ∉ line) :
    ∀ g ∈ line, decide (g = .scalar '\n') = false := by
  intro g hg
  exact decide_eq_false fun same => h (same ▸ hg)

/-- Joined lines are cut back into the same lines. -/
theorem split_join (first : Text) (rest : List Text)
    (h : ∀ line ∈ first :: rest, .scalar '\n' ∉ line) :
    Text.split (· = .scalar '\n') (Text.join "\n" (first :: rest)) = first :: rest := by
  induction rest generalizing first with
  | nil =>
    have whole := isFeed_eq_false (h first List.mem_cons_self)
    simpa [Text.join] using Text.split_of_neg whole
  | cons second rest ih =>
    have whole := isFeed_eq_false (h first List.mem_cons_self)
    have cut := Text.split_append_cons (Text.join "\n" (second :: rest)) whole
      (g := .scalar '\n') (by simp)
    rw [Text.join_cons_cons, List.append_assoc]
    refine cut.trans ?_
    rw [ih second fun line hl => h line (List.mem_cons_of_mem first hl)]

/-- The lines of joined lines are these lines, but for an empty last one. -/
theorem raw_join (lines : List Text) (h : ∀ line ∈ lines, .scalar '\n' ∉ line) :
    raw (Text.join "\n" lines) =
      if lines.getLast? = some [] then lines.dropLast else lines := by
  cases lines with
  | nil => rfl
  | cons first rest => rw [raw, split_join first rest h]

/-- Lines with a line feed behind each are cut back into the same lines. -/
theorem raw_flatMap_line (lines : List Text) (h : ∀ line ∈ lines, .scalar '\n' ∉ line) :
    raw (lines.flatMap Text.line) = lines := by
  have feeds : ∀ line ∈ lines ++ [[]], .scalar '\n' ∉ line := by
    intro line member
    rcases List.mem_append.mp member with old | new
    · exact h line old
    · simp [List.mem_singleton.mp new]
  rw [← Text.join_append_nil, raw_join _ feeds]
  simp

theorem split_append_feed (front t : Text) :
    Text.split (· = .scalar '\n') (front ++ .scalar '\n' :: t) =
      Text.split (· = .scalar '\n') front ++ Text.split (· = .scalar '\n') t :=
  Text.split_append front t (decide_eq_true rfl)

/-- A line feed at the end begins no line. -/
theorem raw_append_feed (front : Text) :
    raw (front ++ [.scalar '\n']) = Text.split (· = .scalar '\n') front := by
  have empty : Text.split (· = .scalar '\n') ([] : Text) = [[]] := rfl
  simp [raw, split_append_feed front [], empty]

/-- Behind a text that ends with a line feed the lines of another one begin. -/
theorem raw_append {first : Text} (ended : first.getLast? = some (.scalar '\n')) (second : Text) :
    raw (first ++ second) = raw first ++ raw second := by
  obtain ⟨front, rfl⟩ := List.getLast?_eq_some_iff.mp ended
  have whole := split_append_feed front second
  have filled : Text.split (· = .scalar '\n') second ≠ [] := List.cons_ne_nil _ _
  rw [raw_append_feed, List.append_assoc, List.singleton_append]
  unfold raw
  dsimp only
  rw [whole, List.getLast?_append_of_ne_nil _ filled, List.dropLast_append_of_ne_nil filled]
  split <;> rfl

section Whole

variable {t : Text} (whole : (ofText t).overlong = false)

include whole

theorem fits_of_mem_raw : ∀ line ∈ raw t, fits line = true := by
  simpa [ofText] using whole

theorem lines_eq_map_raw : (ofText t).lines = (raw t).map dropReturn := by
  rw [ofText, List.takeWhile_eq_self_iff.mpr (fits_of_mem_raw whole)]

/-- A text is read behind one that ends with a line feed as it is alone. -/
theorem ofText_append (ended : t.getLast? = some (.scalar '\n')) (second : Text) :
    ofText (t ++ second) =
      ⟨(ofText t).lines ++ (ofText second).lines, (ofText second).overlong⟩ := by
  have fit := fits_of_mem_raw whole
  have all : (raw t).all fits = true := List.all_eq_true.mpr fit
  rw [lines_eq_map_raw whole]
  simp only [ofText, raw_append ended, List.takeWhile_append_of_pos fit, List.map_append,
    List.all_append, all, Bool.true_and]

/-- A text that ends with a line feed has as many lines as line feeds. -/
theorem length_lines (ended : t.getLast? = some (.scalar '\n')) :
    (ofText t).lines.length = t.count (.scalar '\n') := by
  obtain ⟨front, rfl⟩ := List.getLast?_eq_some_iff.mp ended
  rw [lines_eq_map_raw whole, List.length_map, raw_append_feed, Text.length_split,
    List.count_append, List.count_singleton_self]
  rfl

end Whole

/-- Every line is a part of the text. -/
theorem infix_of_mem_ofText {source line : Text} (h : line ∈ (ofText source).lines) :
    line <:+: source := by
  obtain ⟨whole, member, rfl⟩ := List.mem_map.mp h
  have piece : whole ∈ source.split (· = .scalar '\n') := by
    have kept : whole ∈ raw source := List.takeWhile_subset _ member
    unfold raw at kept
    dsimp only at kept
    split at kept
    · exact List.dropLast_subset _ kept
    · exact kept
  have front : dropReturn whole <+: whole := by
    unfold dropReturn
    split
    · exact List.dropLast_prefix whole
    · exact List.prefix_rfl
  exact front.isInfix.trans (Text.infix_of_mem_split piece)

end Lines

end StackMachine
