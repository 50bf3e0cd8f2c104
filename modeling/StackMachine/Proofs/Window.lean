import Mathlib.Data.List.Basic
import Mathlib.Data.Nat.ModEq
import StackMachine.Ring

/-!
# A ring is a sliding window

The slots of a ring, read in a circle from its oldest value on, hold the last of the
values pushed to it since it was empty: all of them while there are free slots, and after
that as many as there are slots.

## Main definitions

* `Ring.Window`: a ring holds the last of some values.
* `Ring.Use`, `Ring.after`, `Ring.pushed`: uses of a ring, what they make of it, and what was pushed
  in them.

## Main results

* `Ring.Window.new`, `Ring.Window.clear`, `Ring.Window.push`: what the operations leave.
* `Ring.Window.toList_eq`: the values of a ring, oldest first.
* `Ring.holds_last_pushed`: a ring after any uses.
-/

namespace StackMachine

namespace Ring

variable {α : Type} {r : Ring α} {values : List α}

/-! ### Slots -/

theorem slot_lt (r : Ring α) (n : Nat) (sized : 0 < r.capacity) : r.slot n < r.capacity :=
  Nat.mod_lt _ sized

theorem slot_zero (started : r.start < r.capacity) : r.slot 0 = r.start :=
  Nat.mod_eq_of_lt started

/-- Two slots less than a full turn apart are different. -/
theorem slot_ne (r : Ring α) {a b : Nat} (behind : a < b) (turn : b < a + r.capacity) :
    r.slot a ≠ r.slot b := by
  intro same
  have multiple : r.capacity ∣ (r.start + b) - (r.start + a) :=
    (Nat.modEq_iff_dvd' (by omega)).mp same
  have turns := Nat.le_of_dvd (by omega) multiple
  omega

theorem get?_setIfInBounds (r : Ring α) (value : α) {k n : Nat} (inside : k < r.capacity) :
    Ring.get? { r with slots := r.slots.setIfInBounds k (some value) } n =
      if k = r.slot n then some value else r.get? n := by
  have index : Ring.slot { r with slots := r.slots.setIfInBounds k (some value) } n = r.slot n := by
    simp [slot, capacity]
  rw [get?, index, Array.getElem?_setIfInBounds]
  by_cases same : k = r.slot n
  · have written : k < r.slots.size := inside
    simp [same ▸ written, same]
  · simp [same, get?]

/-! ### Windows -/

/-- A ring holds the last of the values pushed to it, as many as it has slots. -/
structure Window (r : Ring α) (values : List α) : Prop where
  started : r.start < r.capacity
  counted : r.count = min values.length r.capacity
  kept : ∀ n < r.count, r.get? n = values[values.length - r.count + n]?

namespace Window

theorem sized (window : r.Window values) : 0 < r.capacity :=
  Nat.lt_of_le_of_lt (Nat.zero_le _) window.started

theorem new (depth : Nat) : (Ring.new depth : Ring α).Window [] where
  started := by simp [Ring.new, capacity]
  counted := by simp [Ring.new]
  kept := by simp [Ring.new]

theorem clear (sized : 0 < r.capacity) : r.clear.Window [] where
  started := by simpa [Ring.clear, capacity] using sized
  counted := by simp [Ring.clear]
  kept := by simp [Ring.clear]

/-- A value goes behind the newest while there are free slots. -/
theorem push_free (window : r.Window values) (value : α) (free : r.count < r.capacity) :
    Window { r with
        slots := r.slots.setIfInBounds (r.slot r.count) (some value)
        count := r.count + 1 } (values ++ [value]) where
  started := by simpa [capacity] using window.started
  counted := by
    have counted := window.counted
    simp only [capacity, List.length_append, List.length_cons, List.length_nil,
      Array.size_setIfInBounds] at counted free ⊢
    omega
  kept := by
    intro n (hn : n < r.count + 1)
    have counted := window.counted
    have all : r.count = values.length := by omega
    have read := get?_setIfInBounds r value (n := n) (r.slot_lt r.count window.sized)
    by_cases newest : n = r.count
    · subst newest
      simpa [all, get?, slot, capacity] using read
    · have older : n < r.count := by omega
      have apart : r.slot r.count ≠ r.slot n := (r.slot_ne older (by omega)).symm
      rw [if_neg apart, window.kept n older] at read
      simpa [all, get?, slot, capacity, List.getElem?_append_left (all ▸ older)] using read

/-- A value takes the place of the oldest once all slots are in use. -/
theorem push_full (window : r.Window values) (value : α) (full : ¬r.count < r.capacity) :
    Window { r with
        slots := r.slots.setIfInBounds r.start (some value)
        start := r.slot 1 } (values ++ [value]) where
  started := by simpa [capacity] using r.slot_lt 1 window.sized
  counted := by
    have counted := window.counted
    simp only [capacity, List.length_append, List.length_cons, List.length_nil,
      Array.size_setIfInBounds] at counted full ⊢
    omega
  kept := by
    intro n (hn : n < r.count)
    have counted := window.counted
    have read := get?_setIfInBounds r value (n := n + 1) window.started
    have turned : Ring.get? { r with
        slots := r.slots.setIfInBounds r.start (some value)
        start := r.slot 1 } n =
          Ring.get? { r with slots := r.slots.setIfInBounds r.start (some value) } (n + 1) := by
      simp [get?, slot, capacity, Nat.add_assoc, Nat.add_comm 1 n]
    rw [turned, read]
    by_cases newest : n + 1 = r.count
    · -- a full turn from the oldest value leads back to its slot
      have back : r.start = r.slot (n + 1) := by
        rw [newest, show r.count = r.capacity by omega, slot, Nat.add_mod_right,
          Nat.mod_eq_of_lt window.started]
      have last : (values ++ [value]).length - r.count + n = values.length := by
        simp only [List.length_append, List.length_singleton]
        omega
      rw [if_pos back, last, List.getElem?_concat_length]
    · have older : n + 1 < r.count := by omega
      have apart : r.start ≠ r.slot (n + 1) := by
        rw [← slot_zero window.started]
        exact r.slot_ne (by omega) (by omega)
      have next : (values ++ [value]).length - r.count + n =
          values.length - r.count + (n + 1) := by
        simp only [List.length_append, List.length_singleton]
        omega
      rw [if_neg apart, window.kept _ older, next, List.getElem?_append_left (by omega)]

/-- A value pushed to a ring is the last of those that it holds. -/
theorem push (window : r.Window values) (value : α) :
    (r.push value).Window (values ++ [value]) := by
  unfold Ring.push
  split
  · exact window.push_free value (by assumption)
  · exact window.push_full value (by assumption)

/-- The values of a ring are the last of those pushed to it. -/
theorem toList_eq (window : r.Window values) :
    r.toList = values.drop (values.length - r.capacity) := by
  have counted := window.counted
  have each : (List.range r.count).map r.get? =
      (values.drop (values.length - r.count)).map some := by
    refine List.ext_getElem (by simp; omega) fun n hn _ => ?_
    have inside : n < r.count := by simpa using hn
    have shown := window.kept n inside
    rw [List.getElem?_eq_getElem (by omega)] at shown
    simpa using shown
  calc r.toList = ((List.range r.count).map r.get?).filterMap id := by simp [toList]
    _ = values.drop (values.length - r.count) := by rw [each]; simp
    _ = values.drop (values.length - r.capacity) := by congr 1; omega

theorem length_toList (window : r.Window values) :
    r.toList.length = min values.length r.capacity := by
  rw [window.toList_eq, List.length_drop]
  omega

end Window

theorem capacity_push (r : Ring α) (value : α) : (r.push value).capacity = r.capacity := by
  unfold push
  split <;> simp [capacity]

theorem capacity_clear (r : Ring α) : r.clear.capacity = r.capacity := by
  simp [clear, capacity]

/-! ### Uses -/

/-- A use of a ring. -/
inductive Use (α : Type) where
  /-- Adds a value. -/
  | push (value : α)
  /-- Drops all values. -/
  | clear

namespace Use

/-- What a use makes of a ring. -/
def apply : Use α → Ring α → Ring α
  | push value, r => r.push value
  | clear, r => r.clear

/-- What a use makes of the values that were pushed before it and not dropped by a clear. -/
def record : Use α → List α → List α
  | push value, values => values ++ [value]
  | clear, _ => []

theorem capacity_apply (use : Use α) (r : Ring α) : (use.apply r).capacity = r.capacity := by
  cases use with
  | push value => exact r.capacity_push value
  | clear => exact r.capacity_clear

end Use

/-- A ring after some uses, the first of which stands first. -/
def after (r : Ring α) (uses : List (Use α)) : Ring α :=
  uses.foldl (fun r use => use.apply r) r

/-- The values that were pushed in some uses since the last clear among them, or since their
beginning. -/
def pushed (uses : List (Use α)) : List α :=
  uses.foldl (fun values use => use.record values) []

theorem capacity_after (r : Ring α) (uses : List (Use α)) :
    (r.after uses).capacity = r.capacity := by
  induction uses generalizing r with
  | nil => rfl
  | cons use rest ih => exact (ih (use.apply r)).trans (use.capacity_apply r)

namespace Window

/-- A use keeps a ring a window, of the values that it records. -/
theorem apply (window : r.Window values) (use : Use α) :
    (use.apply r).Window (use.record values) := by
  cases use with
  | push value => exact window.push value
  | clear => exact .clear window.sized

theorem after (window : r.Window values) (uses : List (Use α)) :
    (r.after uses).Window (uses.foldl (fun values use => use.record values) values) := by
  induction uses generalizing r values with
  | nil => exact window
  | cons use rest ih => exact ih (window.apply use)

/-- The slots from the oldest value on hold the values of a ring, in their order. -/
theorem getElem?_slot (window : r.Window values) {n : Nat} (held : n < r.count) :
    r.slots[r.slot n]? = some r.toList[n]? := by
  have inside : r.slot n < r.slots.size := r.slot_lt n window.sized
  have counted := window.counted
  have place : values.length - r.capacity + n = values.length - r.count + n := by omega
  have read : r.get? n = r.toList[n]? := by
    rw [window.kept n held, window.toList_eq, List.getElem?_drop, place]
  rw [get?, Array.getElem?_eq_getElem inside, Option.join_some] at read
  rw [Array.getElem?_eq_getElem inside, read]

end Window

/-- **A ring is a sliding window.** Take a new ring of any depth, where depths below one stand for
one, after any uses. Its values, oldest first, are the last of those pushed since the last clear,
as many of them as it has slots for, and they are counted. The slots that the next push or a walk
over the values comes to exist: that of the oldest value, the one behind the newest, and for each
value its own, which holds it. -/
theorem holds_last_pushed (depth : Int) (uses : List (Use α)) :
    let r : Ring α := (Ring.new depth.toNat).after uses
    (r.capacity : Int) = max depth 1 ∧
    r.toList <:+ pushed uses ∧
    r.toList.length = min (pushed uses).length r.capacity ∧
    r.count = r.toList.length ∧
    r.start < r.slots.size ∧ r.slot r.count < r.slots.size ∧
    ∀ n < r.count, r.slot n < r.slots.size ∧ r.slots[r.slot n]? = some r.toList[n]? := by
  intro r
  have window : r.Window (pushed uses) := (Window.new depth.toNat).after uses
  have length := window.length_toList
  refine ⟨?_, ?_, length, window.counted.trans length.symm, window.started,
    r.slot_lt _ window.sized,
    fun n held => ⟨r.slot_lt n window.sized, window.getElem?_slot held⟩⟩
  · have slots : r.capacity = max depth.toNat 1 := by
      rw [capacity_after, Ring.new, capacity, Array.size_replicate]
    omega
  · rw [window.toList_eq]
    exact List.drop_suffix _ _

/-- The third of three values goes around to the first slot, and a clear begins anew behind it. -/
example :
    ((Ring.new 2).after [.push 1, .push 2, .push 3] : Ring Nat).start = 1 ∧
    ((Ring.new 2).after [.push 1, .push 2, .push 3] : Ring Nat).toList = [2, 3] ∧
    ((Ring.new 2).after [.push 1, .push 2, .push 3, .clear, .push 4] : Ring Nat).toList = [4] := by
  decide

end Ring

end StackMachine
