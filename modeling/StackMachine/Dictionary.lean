import StackMachine.Text.Glyph

/-!
# Dictionaries

Tables from names to values, kept in the listing order of the names. Because of the
order a table does not remember in which order its names were set.

## Main definitions

* `Dictionary`: a table.
* `Dictionary.find?`, `Dictionary.set`: looking a name up and setting its value.
* `Dictionary.chain`: several lists of pairs read one after another.
-/

namespace StackMachine

/-- A table from names to values. -/
structure Dictionary (α : Type) where
  /-- The names and their values, in listing order. -/
  entries : List (Text × α) := []
  deriving DecidableEq

namespace Dictionary

variable {α : Type}

/-- The value of a name in a list of entries. -/
def findIn? (name : Text) : List (Text × α) → Option α
  | [] => none
  | (key, value) :: rest => if key = name then some value else findIn? name rest

/-- The value of a name. -/
def find? (d : Dictionary α) (name : Text) : Option α :=
  findIn? name d.entries

/-- Whether a name has a value. -/
def contains (d : Dictionary α) (name : Text) : Bool :=
  (d.find? name).isSome

/-- A list of entries with the value of a name set. -/
def setIn (name : Text) (value : α) : List (Text × α) → List (Text × α)
  | [] => [(name, value)]
  | (key, old) :: rest =>
    if key = name then (name, value) :: rest
    else if name.before key then (name, value) :: (key, old) :: rest
    else (key, old) :: setIn name value rest

/-- The table with the value of a name set. -/
def set (d : Dictionary α) (name : Text) (value : α) : Dictionary α :=
  ⟨setIn name value d.entries⟩

theorem findIn?_setIn_of_ne {name other : Text} (value : α) (h : name ≠ other)
    (entries : List (Text × α)) :
    findIn? other (setIn name value entries) = findIn? other entries := by
  induction entries with
  | nil => simp [setIn, findIn?, h]
  | cons entry rest ih =>
    obtain ⟨key, old⟩ := entry
    simp only [setIn]
    split
    · rename_i same
      simp [findIn?, same, h]
    · split
      · simp [findIn?, h]
      · simp [findIn?, ih]

/-- Setting a name keeps the values of the others. -/
theorem find?_set_of_ne {name other : Text} (d : Dictionary α) (value : α) (h : name ≠ other) :
    (d.set name value).find? other = d.find? other :=
  findIn?_setIn_of_ne value h d.entries

theorem findIn?_setIn_self (name : Text) (value : α) (entries : List (Text × α)) :
    findIn? name (setIn name value entries) = some value := by
  induction entries with
  | nil => simp [setIn, findIn?]
  | cons entry rest ih =>
    obtain ⟨key, old⟩ := entry
    simp only [setIn]
    split
    · simp [findIn?]
    · rename_i other
      split
      · simp [findIn?]
      · simp [findIn?, other, ih]

/-- A name has the value that it was set to. -/
theorem find?_set_self (d : Dictionary α) (name : Text) (value : α) :
    (d.set name value).find? name = some value :=
  findIn?_setIn_self name value d.entries

/-- A value in a table with a name set is that of the name, or was there before. -/
theorem eq_or_find?_of_find?_set {d : Dictionary α} {name other : Text} {value found : α}
    (h : (d.set name value).find? other = some found) :
    (other = name ∧ found = value) ∨ (other ≠ name ∧ d.find? other = some found) := by
  by_cases same : other = name
  · subst same
    rw [find?_set_self, Option.some.injEq] at h
    exact .inl ⟨rfl, h.symm⟩
  · rw [find?_set_of_ne d value (Ne.symm same)] at h
    exact .inr ⟨same, h⟩

/-- The table with several names set, in turn. -/
def setAll (d : Dictionary α) (pairs : List (Text × α)) : Dictionary α :=
  pairs.foldl (fun d (name, value) => d.set name value) d

/-- Setting names keeps the values of the others. -/
theorem find?_setAll_of_not_mem {word : Text} (d : Dictionary α) {pairs : List (Text × α)}
    (h : word ∉ pairs.map Prod.fst) : (d.setAll pairs).find? word = d.find? word := by
  induction pairs generalizing d with
  | nil => rfl
  | cons pair rest ih =>
    simp only [List.map_cons, List.mem_cons, not_or] at h
    rw [setAll, List.foldl_cons, ← setAll, ih _ h.2, find?_set_of_ne d pair.2 (Ne.symm h.1)]

/-- The table of a list of pairs; of two pairs with one name the later counts. -/
def ofList (pairs : List (Text × α)) : Dictionary α :=
  setAll {} pairs

/-- Several lists of pairs, one after another. -/
def chain {β : Type} (lists : List (List (α × β))) : List (α × β) :=
  lists.flatten

/-! ### Pairs -/

theorem findIn?_eq_none {name : Text} {pairs : List (Text × α)}
    (h : name ∉ pairs.map Prod.fst) : findIn? name pairs = none := by
  induction pairs with
  | nil => rfl
  | cons pair rest ih =>
    simp only [List.map_cons, List.mem_cons, not_or] at h
    rw [findIn?, if_neg (Ne.symm h.1), ih h.2]

theorem mem_of_findIn? {name : Text} {pairs : List (Text × α)} {value : α}
    (h : findIn? name pairs = some value) : (name, value) ∈ pairs := by
  induction pairs with
  | nil => cases h
  | cons pair rest ih =>
    rw [findIn?] at h
    split at h
    · rename_i same
      cases h
      exact same ▸ List.mem_cons_self
    · exact List.mem_cons_of_mem pair (ih h)

theorem findIn?_zip_map {β : Type} (f : α → β) (name : Text) (names : List Text)
    (values : List α) :
    findIn? name (names.zip (values.map f)) = (findIn? name (names.zip values)).map f := by
  induction names generalizing values with
  | nil => rfl
  | cons key names ih =>
    cases values with
    | nil => rfl
    | cons value values =>
      simp only [List.map_cons, List.zip_cons_cons, findIn?]
      split
      · rfl
      · exact ih values

/-- Names that are set once each hide what they were before. -/
theorem find?_setAll_of_nodup (d : Dictionary α) (name : Text) {pairs : List (Text × α)}
    (distinct : (pairs.map Prod.fst).Nodup) :
    (d.setAll pairs).find? name = (findIn? name pairs).or (d.find? name) := by
  induction pairs generalizing d with
  | nil => rfl
  | cons pair rest ih =>
    obtain ⟨key, value⟩ := pair
    rw [List.map_cons, List.nodup_cons] at distinct
    have first : (d.setAll ((key, value) :: rest)).find? name =
        (findIn? name rest).or ((d.set key value).find? name) := ih _ distinct.2
    rw [first, findIn?]
    split
    · rename_i same
      subst same
      rw [findIn?_eq_none distinct.1, find?_set_self]
      rfl
    · rename_i other
      rw [find?_set_of_ne d value other]

end Dictionary

end StackMachine
