import StackMachine.Text.Numeral

/-!
# The operand stack

A bounded stack of 32-bit integers. A limit that is not positive stands for the
default limit.

## Main definitions

* `Stack`: the entries, top first, their number and the limit.
* `Stack.push?`, `Stack.pop?`, `Stack.peekAt?`: the operations; each says whether it succeeded.
* `Stack.push`, `Stack.pop`, `Stack.peek`: the same without asking whether they succeeded.
* `Stack.has`, `Stack.room`, `Stack.isFull`: the checks made before an operation.
-/

namespace StackMachine

/-- The operand stack. -/
structure Stack where
  /-- The entries, top first. -/
  items : List Int32 := []
  /-- The greatest depth, or a number that is not positive for the default. -/
  limit : Int := 0
  /-- Whether anything was pushed since the stack was made. -/
  used : Bool := false
  /-- The number of entries. -/
  depth : Nat := items.length
  /-- The entries are counted. -/
  counted : depth = items.length := by rfl
  deriving DecidableEq

namespace Stack

/-- The greatest depth of a stack without a limit of its own. -/
def defaultLimit : Nat := 256

/-- The greatest depth of a stack. -/
def bound (s : Stack) : Int :=
  if s.limit ≤ 0 then defaultLimit else s.limit

/-- The entries, bottom first. -/
def toList (s : Stack) : List Int32 :=
  s.items.reverse

/-- A stack without entries. -/
def empty (limit : Int) : Stack where
  limit := limit

/-- A stack with the given entries, bottom first. -/
def ofList (entries : List Int32) (limit : Int) : Stack where
  items := entries.reverse
  limit := limit
  used := !entries.isEmpty

/-- Whether the stack has no entries. -/
def isEmpty (s : Stack) : Bool :=
  s.items.isEmpty

/-- Whether no entry can be pushed. -/
def isFull (s : Stack) : Bool :=
  s.bound ≤ s.depth

/-- Whether at least `n` entries are on the stack. -/
def has (s : Stack) (n : Int) : Bool :=
  n ≤ s.depth

/-- Whether `n` more entries can be pushed; the sum is that of 64-bit integers. -/
def room (s : Stack) (n : Int) : Bool :=
  Numeral.wrap (s.depth + n) ≤ s.bound

/-- The stack with one more entry, unless it is full. -/
def push? (s : Stack) (value : Int32) : Option Stack :=
  if s.isFull then none
  else
    some { s with
      items := value :: s.items
      used := true
      depth := s.depth + 1
      counted := by rw [s.counted, List.length_cons] }

/-- The top entry and the stack below it, unless the stack is empty. -/
def pop? (s : Stack) : Option (Int32 × Stack) :=
  match h : s.items with
  | [] => none
  | value :: rest =>
    some (value, { s with
      items := rest
      depth := s.depth - 1
      counted := by rw [s.counted, h, List.length_cons, Nat.add_sub_cancel] })

/-- The entry `n` below the top. -/
def peekAt? (s : Stack) (n : Int) : Option Int32 :=
  if n < 0 then none else s.items[n.toNat]?

/-- The top entry. -/
def peek? (s : Stack) : Option Int32 :=
  s.peekAt? 0

/-- The stack with one more entry; a full stack stays as it is. -/
def push (s : Stack) (value : Int32) : Stack :=
  (s.push? value).getD s

/-- The top entry and the stack below it; an empty stack gives zero and stays as it is. -/
def pop (s : Stack) : Int32 × Stack :=
  s.pop?.getD (0, s)

/-- The top entry, or zero if there is none. -/
def peek (s : Stack) : Int32 :=
  s.peek?.getD 0

/-- The stack without entries. -/
def clear (s : Stack) : Stack :=
  { limit := s.limit, used := s.used }

/-- Pushes a value up to `n` times: the stack reached and the number of pushes that succeeded. -/
def fill (s : Stack) (value : Int32) : Nat → Stack × Nat
  | 0 => (s, 0)
  | n + 1 =>
    match s.push? value with
    | none => s.fill value n
    | some next => ((next.fill value n).1, (next.fill value n).2 + 1)

/-! ### What stays -/

@[simp] theorem limit_push (s : Stack) (value : Int32) : (s.push value).limit = s.limit := by
  unfold push push?
  split <;> rfl

@[simp] theorem limit_pop (s : Stack) : s.pop.2.limit = s.limit := by
  unfold pop pop?
  split <;> rfl

@[simp] theorem used_push (s : Stack) (value : Int32) :
    (s.push value).used = (s.used || !s.isFull) := by
  cases hfull : s.isFull <;> simp [push, push?, hfull]

@[simp] theorem used_pop (s : Stack) : s.pop.2.used = s.used := by
  unfold pop pop?
  split <;> rfl

/-! ### Operations on stacks of known shape -/

theorem has_iff (s : Stack) (n : Int) : s.has n = true ↔ n ≤ s.depth := by
  simp [has]

theorem isFull_eq_false_iff (s : Stack) : s.isFull = false ↔ (s.depth : Int) < s.bound := by
  simp [isFull]

theorem exists_items_of_one_le {s : Stack} (h : 1 ≤ s.depth) : ∃ a rest, s.items = a :: rest :=
  List.exists_cons_of_length_pos (s.counted ▸ h)

theorem exists_items_of_two_le {s : Stack} (h : 2 ≤ s.depth) :
    ∃ b a rest, s.items = b :: a :: rest := by
  match hitems : s.items, h with
  | b :: a :: rest, _ => exact ⟨b, a, rest, rfl⟩
  | [_], h | [], h => simp [s.counted, hitems] at h

theorem exists_items_of_three_le {s : Stack} (h : 3 ≤ s.depth) :
    ∃ c b a rest, s.items = c :: b :: a :: rest := by
  match hitems : s.items, h with
  | c :: b :: a :: rest, _ => exact ⟨c, b, a, rest, rfl⟩
  | [_, _], h | [_], h | [], h => simp [s.counted, hitems] at h

/-- A stack within its limit has room above any smaller one. -/
theorem length_lt_bound {s : Stack} (within : (s.depth : Int) ≤ s.bound) {items : List Int32}
    (h : items.length < s.items.length) : (items.length : Int) < s.bound :=
  Int.lt_of_lt_of_le (Int.ofNat_lt.2 (s.counted ▸ h)) within

/-- A push succeeds where there is room. -/
theorem push_of_lt {s : Stack} (value : Int32) (h : (s.depth : Int) < s.bound) :
    s.push value = { items := value :: s.items, limit := s.limit, used := true } := by
  have hfull : s.isFull = false := s.isFull_eq_false_iff.2 h
  obtain ⟨items, limit, used, depth, counted⟩ := s
  subst counted
  simp [push, push?, hfull]

theorem pop_of_items {s : Stack} {value : Int32} {rest : List Int32}
    (h : s.items = value :: rest) :
    s.pop = (value, { items := rest, limit := s.limit, used := s.used }) := by
  obtain ⟨items, limit, used, depth, counted⟩ := s
  subst counted
  subst h
  rfl

@[simp] theorem pop_mk (value : Int32) (rest : List Int32) (limit : Int) (used : Bool) :
    pop { items := value :: rest, limit := limit, used := used } =
      (value, { items := rest, limit := limit, used := used }) :=
  rfl

@[simp] theorem peek_mk (value : Int32) (rest : List Int32) (limit : Int) (used : Bool) :
    peek { items := value :: rest, limit := limit, used := used } = value :=
  rfl

/-- A push onto a part of a stack succeeds where there is room. -/
theorem push_mk {s : Stack} {items : List Int32} {used : Bool} (value : Int32)
    (h : (items.length : Int) < s.bound) :
    push { items := items, limit := s.limit, used := used } value =
      { items := value :: items, limit := s.limit, used := true } :=
  push_of_lt value h

theorem peek_of_items {s : Stack} {value : Int32} {rest : List Int32}
    (h : s.items = value :: rest) : s.peek = value := by
  simp [peek, peek?, peekAt?, h]

end Stack

end StackMachine
