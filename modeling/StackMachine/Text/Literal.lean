import StackMachine.Text.Glyph

/-!
# Reading numbers

The digit strings that the assembler, the debugger and the command line accept.
Plain digit strings have no separators. A data value may carry a base mark
(`0x`, `0o`, `0b`, or a leading `0` for octal) and underscores between digits.

## Main definitions

* `Literal.natural?`: a non-empty digit string in a base.
* `Literal.integer?`: an optionally signed decimal within a number of bits.
* `Literal.marked`: an optionally signed literal with an optional base mark.
-/

namespace StackMachine

namespace Literal

/-- The value of a digit in a base of at most 36. -/
def digit? (base : Nat) : Glyph → Option Nat
  | .scalar c =>
    let value :=
      if '0' ≤ c ∧ c ≤ '9' then c.toNat - '0'.toNat
      else if 'a' ≤ c ∧ c ≤ 'z' then c.toNat - 'a'.toNat + 10
      else if 'A' ≤ c ∧ c ≤ 'Z' then c.toNat - 'A'.toNat + 10
      else 36
    if value < base then some value else none
  | .stray _ => none

/-- The value of a digit string behind digits already worth `value`. -/
def digits? (base : Nat) : Nat → Text → Option Nat
  | value, [] => some value
  | value, g :: rest => (digit? base g).bind fun d => digits? base (value * base + d) rest

/-- The value of a non-empty digit string. -/
def natural? (base : Nat) (t : Text) : Option Nat :=
  if t.isEmpty then none else digits? base 0 t

/-- A sign at the front of a text, as whether it is negative, and the text behind it. -/
def takeSign : Text → Bool × Text
  | .scalar '+' :: rest => (false, rest)
  | .scalar '-' :: rest => (true, rest)
  | t => (false, t)

/-- The integer of a sign and a magnitude. -/
def withSign (negative : Bool) (magnitude : Nat) : Int :=
  if negative then -(magnitude : Int) else magnitude

/-- Whether an integer fits in a signed word of `bits` bits. -/
def fits (bits : Nat) (n : Int) : Bool :=
  -(Nat.pow 2 (bits - 1) : Nat) ≤ n && n < (Nat.pow 2 (bits - 1) : Nat)

/-- An optionally signed decimal that fits in `bits` bits. -/
def integer? (bits : Nat) (t : Text) : Option Int :=
  match natural? 10 (takeSign t).2 with
  | some magnitude =>
    let value := withSign (takeSign t).1 magnitude
    if fits bits value then some value else none
  | none => none

/-! ### Literals with a base mark -/

/-- Why a literal is refused. -/
inductive Refusal where
  /-- The text is no literal. -/
  | malformed
  /-- The value does not fit. -/
  | outOfRange
  deriving DecidableEq

/-- The base of an unsigned literal and its digits behind the base mark. -/
def takeBase : Text → Nat × Text
  | .scalar '0' :: .scalar m :: d :: rest =>
    if m = 'b' ∨ m = 'B' then (2, d :: rest)
    else if m = 'o' ∨ m = 'O' then (8, d :: rest)
    else if m = 'x' ∨ m = 'X' then (16, d :: rest)
    else (8, .scalar m :: d :: rest)
  | .scalar '0' :: rest => (8, rest)
  | t => (10, t)

/-- Reads digits and underscores from the left; the first digit that takes the value past
`most` decides before a later wrong digit does. -/
def scan (base most : Nat) : Nat → Text → Except Refusal Nat
  | value, [] => .ok value
  | value, g :: rest =>
    if g = .scalar '_' then scan base most value rest
    else
      match digit? base g with
      | none => .error .malformed
      | some d =>
        let next := value * base + d
        if most < next then .error .outOfRange else scan base most next rest

/-- What the separators of a literal follow. -/
inductive Before where
  | nothing
  | digit
  | underscore
  | other
  deriving DecidableEq

/-- Whether every underscore stands between two digits, the base mark counting as one. -/
def separated (hexadecimal : Bool) : Before → Text → Bool
  | previous, [] => previous ≠ .underscore
  | previous, g :: rest =>
    if (digit? (if hexadecimal then 16 else 10) g).isSome then separated hexadecimal .digit rest
    else if g = .scalar '_' then
      previous = .digit && separated hexadecimal .underscore rest
    else previous ≠ .underscore && separated hexadecimal .other rest

/-- Whether the underscores of an unsigned literal are well placed. -/
def wellSeparated : Text → Bool
  | .scalar '0' :: .scalar m :: rest =>
    if m = 'x' ∨ m = 'X' then separated true .digit rest
    else if m = 'b' ∨ m = 'B' ∨ m = 'o' ∨ m = 'O' then separated false .digit rest
    else separated false .nothing (.scalar '0' :: .scalar m :: rest)
  | t => separated false .nothing t

/-- An optionally signed literal with an optional base mark that fits in `bits` bits. -/
def marked (bits : Nat) (t : Text) : Except Refusal Int :=
  let body := (takeSign t).2
  if body.isEmpty then .error .malformed
  else
    match scan (takeBase body).1 (Nat.pow 2 bits - 1) 0 (takeBase body).2 with
    | .error refusal => .error refusal
    | .ok magnitude =>
      if !wellSeparated body then .error .malformed
      else
        let value := withSign (takeSign t).1 magnitude
        if fits bits value then .ok value else .error .outOfRange

end Literal

end StackMachine
