import Mathlib.Data.List.Pairwise
import Mathlib.Tactic.SplitIfs
import StackMachine.Dictionary

/-!
# Tables in listing order

Names are listed in the order of their bytes, which is a strict order. Setting names keeps the
entries of a table in this order, and so no name has two entries. What such a table says about a
name is the last value that the name was set to.

## Main definitions

* `Dictionary.Listed`: a table with its entries in listing order.
* `Dictionary.lastOfEach`: the last pair of each name among some pairs.

## Main results

* `Text.before_iff`: the order of names is that of their bytes.
* `Dictionary.Listed.nodup`: a table in listing order has one entry for a name.
* `Dictionary.find?_setAll`: names that are set have the last value that they were set to.
* `Dictionary.findIn?_lastOfEach`: the last pairs say the same as all pairs.
-/

namespace StackMachine

/-! ### The order of names -/

namespace Text

theorem bytesBefore_iff (s t : List UInt8) : bytesBefore s t = true ↔ s < t := by
  induction s generalizing t with
  | nil => cases t <;> simp [bytesBefore]
  | cons a s ih =>
    cases t with
    | nil => simp [bytesBefore]
    | cons b t => simp [bytesBefore, ih, List.cons_lt_cons_iff]

theorem append_lt_append_iff (front s t : List UInt8) : front ++ s < front ++ t ↔ s < t := by
  induction front with
  | nil => rfl
  | cons a front ih =>
    simpa using ih

theorem bytes_cons (g : Glyph) (t : Text) : bytes (g :: t) = g.bytes ++ bytes t :=
  List.flatMap_cons

theorem bytes_ne_nil (g : Glyph) : g.bytes ≠ [] := by
  cases g with
  | stray b => simp [Glyph.bytes]
  | scalar c =>
    have positive := c.utf8Size_pos
    rw [Glyph.bytes, ← List.length_pos_iff, String.length_utf8EncodeChar]
    exact positive

/-- Names are listed in the order of their bytes. -/
theorem before_iff (s t : Text) : s.before t = true ↔ s.bytes < t.bytes := by
  fun_induction before s t with
  | case1 s => simp [bytes]
  | case2 h t =>
    have filled : bytes (h :: t) ≠ [] := by
      rw [bytes_cons]
      exact List.append_ne_nil_of_left_ne_nil (bytes_ne_nil h) _
    obtain ⟨b, rest, same⟩ := List.exists_cons_of_ne_nil filled
    rw [same]
    simp [bytes]
  | case3 g s t ih => rw [ih, bytes_cons, bytes_cons, append_lt_append_iff]
  | case4 g s h t => exact bytesBefore_iff _ _

theorem before_asymm {s t : Text} (h : s.before t = true) : ¬ t.before s = true := by
  rw [before_iff] at h ⊢
  exact List.lt_asymm h

theorem before_trans {s t u : Text} (h : s.before t = true) (h' : t.before u = true) :
    s.before u = true := by
  rw [before_iff] at h h' ⊢
  exact List.lt_trans h h'

end Text

namespace Dictionary

variable {α : Type}

/-! ### Tables in order -/

/-- Entries in listing order: none comes before an earlier one, and none has the name of an earlier
one. -/
def ListedIn (entries : List (Text × α)) : Prop :=
  entries.Pairwise fun p q => ¬ q.1.before p.1 = true ∧ p.1 ≠ q.1

/-- A table with its entries in listing order. -/
def Listed (d : Dictionary α) : Prop :=
  ListedIn d.entries

theorem mem_setIn {name : Text} {value : α} {entries : List (Text × α)} {entry : Text × α}
    (member : entry ∈ setIn name value entries) : entry = (name, value) ∨ entry ∈ entries := by
  induction entries with
  | nil => simpa [setIn] using member
  | cons other rest ih =>
    rw [setIn] at member
    split_ifs at member <;> grind

theorem ListedIn.setIn {entries : List (Text × α)} (listed : ListedIn entries) (name : Text)
    (value : α) : ListedIn (setIn name value entries) := by
  induction entries with
  | nil => exact List.pairwise_singleton _ _
  | cons entry rest ih =>
    obtain ⟨key, old⟩ := entry
    obtain ⟨above, inside⟩ := List.pairwise_cons.mp listed
    rw [Dictionary.setIn]
    split_ifs with same first
    · subst same
      exact List.pairwise_cons.mpr ⟨above, inside⟩
    · refine List.pairwise_cons.mpr ⟨?_, listed⟩
      rintro ⟨other, found⟩ member
      rcases List.mem_cons.mp member with h | later
      · cases h
        exact ⟨Text.before_asymm first, Ne.symm same⟩
      · -- a name from further on cannot be the new one, which comes before the first
        have notBefore := (above _ later).1
        refine ⟨fun earlier => notBefore (Text.before_trans earlier first), ?_⟩
        rintro rfl
        exact notBefore first
    · refine List.pairwise_cons.mpr ⟨?_, ih inside⟩
      intro other member
      rcases mem_setIn member with rfl | later
      · exact ⟨first, same⟩
      · exact above other later

theorem Listed.set {d : Dictionary α} (listed : d.Listed) (name : Text) (value : α) :
    (d.set name value).Listed :=
  ListedIn.setIn listed name value

theorem Listed.setAll {d : Dictionary α} (listed : d.Listed) (pairs : List (Text × α)) :
    (d.setAll pairs).Listed := by
  induction pairs generalizing d with
  | nil => exact listed
  | cons pair rest ih => exact ih (listed.set pair.1 pair.2)

theorem listed_empty : ({} : Dictionary α).Listed :=
  List.Pairwise.nil

/-- A table in listing order has one entry for a name. -/
theorem Listed.nodup {d : Dictionary α} (listed : d.Listed) : (d.entries.map Prod.fst).Nodup :=
  List.pairwise_map.mpr (listed.imp fun h => h.2)

/-! ### Values -/

/-- To set a name keeps tables apart only where they were. -/
theorem find?_set_congr {d e : Dictionary α} {other : Text} (same : d.find? other = e.find? other)
    (name : Text) (value : α) :
    (d.set name value).find? other = (e.set name value).find? other := by
  by_cases h : name = other
  · rw [h, find?_set_self, find?_set_self]
  · rw [find?_set_of_ne _ _ h, find?_set_of_ne _ _ h, same]

theorem findIn?_append (name : Text) (front back : List (Text × α)) :
    findIn? name (front ++ back) = (findIn? name front).or (findIn? name back) := by
  induction front with
  | nil => rfl
  | cons pair rest ih =>
    rw [List.cons_append, findIn?, findIn?]
    split
    · rfl
    · exact ih

/-- Names that are set have the last value that they were set to; the others keep theirs. -/
theorem find?_setAll (d : Dictionary α) (pairs : List (Text × α)) (name : Text) :
    (d.setAll pairs).find? name = (findIn? name pairs.reverse).or (d.find? name) := by
  induction pairs generalizing d with
  | nil => rfl
  | cons pair rest ih =>
    obtain ⟨key, value⟩ := pair
    have later : (d.setAll ((key, value) :: rest)).find? name =
        (findIn? name rest.reverse).or ((d.set key value).find? name) := ih _
    rw [later, List.reverse_cons, findIn?_append, Option.or_assoc]
    congr 1
    by_cases same : key = name
    · subst same
      simp [find?_set_self, findIn?]
    · simp [find?_set_of_ne d value same, findIn?, same]

/-- Among pairs with one for a name, the value of a name is the one of its pair. -/
theorem findIn?_eq_some_iff {pairs : List (Text × α)} (distinct : (pairs.map Prod.fst).Nodup)
    {name : Text} {value : α} : findIn? name pairs = some value ↔ (name, value) ∈ pairs := by
  refine ⟨mem_of_findIn?, fun member => ?_⟩
  induction pairs with
  | nil => cases member
  | cons pair rest ih =>
    obtain ⟨fresh, others⟩ := List.nodup_cons.mp distinct
    rw [findIn?]
    rcases List.mem_cons.mp member with rfl | later
    · exact if_pos rfl
    · have other : pair.1 ≠ name := by
        rintro rfl
        exact fresh (List.mem_map.mpr ⟨_, later, rfl⟩)
      rw [if_neg other, ih others later]

/-- The order of pairs does not matter where there is one for a name. -/
theorem findIn?_perm {pairs other : List (Text × α)} (distinct : (pairs.map Prod.fst).Nodup)
    (perm : pairs.Perm other) (name : Text) : findIn? name pairs = findIn? name other := by
  have distinct' := (perm.map Prod.fst).nodup_iff.mp distinct
  ext value
  rw [findIn?_eq_some_iff distinct, findIn?_eq_some_iff distinct', perm.mem_iff]

/-- The last pair of each name: those that no later pair has the name of. -/
def lastOfEach (pairs : List (Text × α)) : List (Text × α) :=
  pairs.pwFilter fun p q => p.1 ≠ q.1

theorem nodup_lastOfEach (pairs : List (Text × α)) :
    ((lastOfEach pairs).map Prod.fst).Nodup :=
  List.pairwise_map.mpr (List.pairwise_pwFilter pairs)

/-- The last pairs say the same as all pairs. -/
theorem findIn?_lastOfEach (pairs : List (Text × α)) (name : Text) :
    findIn? name (lastOfEach pairs) = findIn? name pairs.reverse := by
  induction pairs with
  | nil => rfl
  | cons pair rest ih =>
    rw [List.reverse_cons, findIn?_append, ← ih]
    by_cases fresh : ∀ other ∈ lastOfEach rest, pair.1 ≠ other.1
    · rw [lastOfEach, List.pwFilter_cons_of_pos fresh, ← lastOfEach]
      by_cases same : pair.1 = name
      · have absent : name ∉ (lastOfEach rest).map Prod.fst := by
          rw [List.mem_map]
          rintro ⟨other, member, rfl⟩
          exact fresh other member same
        simp [findIn?, same, findIn?_eq_none absent]
      · simp [findIn?, same]
    · rw [lastOfEach, List.pwFilter_cons_of_neg fresh, ← lastOfEach]
      by_cases same : pair.1 = name
      · -- a later pair has the name
        simp only [not_forall, ne_eq, not_not] at fresh
        obtain ⟨⟨key, value⟩, member, hides⟩ := fresh
        have found : findIn? name (lastOfEach rest) = some value :=
          (findIn?_eq_some_iff (nodup_lastOfEach rest)).mpr (by rwa [← same, hides])
        rw [found, Option.some_or]
      · simp [findIn?, same]

end Dictionary

end StackMachine
