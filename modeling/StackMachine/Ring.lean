/-!
# Rings

A ring keeps the last values pushed to it, as many as it has slots. The slots are
used in a circle: a value goes to the slot behind the newest, and once all slots are
taken it replaces the oldest.

## Main definitions

* `Ring`: the slots, the slot of the oldest value, and the number of values.
* `Ring.push`, `Ring.clear`: the operations.
* `Ring.toList`: the values, oldest first.
-/

namespace StackMachine

/-- A bounded queue that drops its oldest value when it is full. -/
structure Ring (α : Type) where
  /-- The slots; the ones in use hold a value. -/
  slots : Array (Option α)
  /-- The slot of the oldest value. -/
  start : Nat
  /-- The number of values held. -/
  count : Nat

namespace Ring

variable {α : Type}

/-- An empty ring with at least one slot. -/
def new (depth : Nat) : Ring α where
  slots := Array.replicate (max depth 1) none
  start := 0
  count := 0

/-- The number of slots. -/
def capacity (r : Ring α) : Nat :=
  r.slots.size

/-- The slot `n` behind the oldest value. -/
def slot (r : Ring α) (n : Nat) : Nat :=
  (r.start + n) % r.capacity

/-- Adds a value, in place of the oldest if the ring is full. -/
def push (r : Ring α) (value : α) : Ring α :=
  if r.count < r.capacity then
    { r with
      slots := r.slots.setIfInBounds (r.slot r.count) (some value)
      count := r.count + 1 }
  else
    { r with
      slots := r.slots.setIfInBounds r.start (some value)
      start := r.slot 1 }

/-- The ring without values. -/
def clear (r : Ring α) : Ring α where
  slots := Array.replicate r.capacity none
  start := 0
  count := 0

/-- The value `n` behind the oldest, if there is one. -/
def get? (r : Ring α) (n : Nat) : Option α :=
  (r.slots[r.slot n]?).join

/-- The values held, oldest first. -/
def toList (r : Ring α) : List α :=
  (List.range r.count).filterMap r.get?

end Ring

end StackMachine
