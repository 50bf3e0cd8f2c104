/-!
# Glyphs and source text

Source text is read from bytes that need not be well-formed. A `Glyph` is one
Unicode scalar value, or one byte that belongs to no well-formed UTF-8 sequence,
and a `Text` is a list of glyphs. Reading bytes never fails and loses nothing:
`Text.bytes` gives back what `Text.ofBytes` was given.

## Main definitions

* `Glyph`, `Text`: the units of source text, and a run of them.
* `Text.ofBytes`, `Text.bytes`: reading and writing UTF-8.
* `Text.ofString`, `Text.toString`: texts without stray bytes, and the printable form.
* `Text.before`: the order in which names are listed.
* `Text.pieces`: cutting a text at every glyph of a class.
-/

namespace StackMachine

/-- One unit of source text. -/
inductive Glyph where
  /-- A Unicode scalar value. -/
  | scalar (c : Char)
  /-- A byte outside every well-formed UTF-8 sequence. -/
  | stray (b : UInt8)
  deriving DecidableEq

/-- A run of source text. -/
abbrev Text := List Glyph

instance : Coe Char Glyph := ⟨Glyph.scalar⟩

namespace Glyph

/-- The number of bytes that a glyph takes in UTF-8. -/
def byteSize : Glyph → Nat
  | scalar c => c.utf8Size
  | stray _ => 1

/-- The bytes of a glyph. -/
def bytes : Glyph → List UInt8
  | scalar c => String.utf8EncodeChar c
  | stray b => [b]

/-- The first byte of a glyph. -/
def leadByte (g : Glyph) : UInt8 :=
  g.bytes.headD 0

/-- The character that stands for a glyph in printed text; a stray byte shows as the
replacement character. -/
def toChar : Glyph → Char
  | scalar c => c
  | stray _ => '\uFFFD'

end Glyph

namespace Text

/-- The text of a string. -/
def ofString (s : String) : Text :=
  s.toList.map Glyph.scalar

instance : Coe String Text := ⟨ofString⟩

theorem ofString_injective : Function.Injective ofString :=
  fun _ _ same => String.toList_inj.mp ((List.map_inj_right fun _ _ => Glyph.scalar.inj).mp same)

/-- The printed form of a text. -/
def toString (t : Text) : String :=
  String.ofList (t.map Glyph.toChar)

/-- The UTF-8 form of a text. -/
def bytes (t : Text) : List UInt8 :=
  t.flatMap Glyph.bytes

/-- The number of bytes of the UTF-8 form of a text. -/
def byteSize (t : Text) : Nat :=
  t.foldl (fun n g => n + g.byteSize) 0

/-! ### Reading UTF-8 -/

/-- Whether a byte continues a multi-byte sequence. -/
def isTail (b : UInt8) : Bool :=
  0x80 ≤ b && b ≤ 0xBF

/-- The scalar value at the front of a byte list and its length, if the front is well-formed.
Overlong forms, surrogates and values past U+10FFFF are refused. -/
def lead? : List UInt8 → Option (Char × Nat)
  | a :: rest =>
    if a < 0x80 then some (Char.ofNat a.toNat, 1)
    else if 0xC2 ≤ a && a ≤ 0xDF then
      match rest with
      | b :: _ =>
        if isTail b then some (Char.ofNat ((a.toNat - 0xC0) * 0x40 + (b.toNat - 0x80)), 2)
        else none
      | _ => none
    else if 0xE0 ≤ a && a ≤ 0xEF then
      match rest with
      | b :: c :: _ =>
        let code := (a.toNat - 0xE0) * 0x1000 + (b.toNat - 0x80) * 0x40 + (c.toNat - 0x80)
        if isTail b && isTail c && 0x800 ≤ code && code.isValidChar then
          some (Char.ofNat code, 3)
        else none
      | _ => none
    else if 0xF0 ≤ a && a ≤ 0xF4 then
      match rest with
      | b :: c :: d :: _ =>
        let code := (a.toNat - 0xF0) * 0x40000 + (b.toNat - 0x80) * 0x1000
          + (c.toNat - 0x80) * 0x40 + (d.toNat - 0x80)
        if isTail b && isTail c && isTail d && 0x10000 ≤ code && code.isValidChar then
          some (Char.ofNat code, 4)
        else none
      | _ => none
    else none
  | [] => none

/-- Decodes with `skip` bytes of the current sequence still to pass over; `seen` holds the
glyphs read so far, last first. -/
def decodeFrom : Nat → Text → List UInt8 → Text
  | _, seen, [] => seen.reverse
  | skip + 1, seen, _ :: rest => decodeFrom skip seen rest
  | 0, seen, b :: rest =>
    match lead? (b :: rest) with
    | some (c, size) => decodeFrom (size - 1) (.scalar c :: seen) rest
    | none => decodeFrom 0 (.stray b :: seen) rest

/-- The text of a byte list: every byte outside a well-formed sequence is stray. -/
def ofBytes (bs : List UInt8) : Text :=
  decodeFrom 0 [] bs

/-! ### Order and cutting -/

/-- Whether a byte list comes strictly before another, as in a dictionary. -/
def bytesBefore : List UInt8 → List UInt8 → Bool
  | _, [] => false
  | [], _ :: _ => true
  | a :: s, b :: t => a < b || a == b && bytesBefore s t

/-- Whether a text comes strictly before another in a listing by name: where the texts part, their
bytes decide. -/
def before : Text → Text → Bool
  | _, [] => false
  | [], _ :: _ => true
  | g :: s, h :: t =>
    if g = h then before s t else bytesBefore (bytes (g :: s)) (bytes (h :: t))

/-- Cuts a text at every glyph that satisfies `p`: the first piece and the later ones. -/
def pieces (p : Glyph → Bool) (t : Text) : Text × List Text :=
  t.foldr (fun g (piece, later) => if p g then ([], piece :: later) else (g :: piece, later))
    ([], [])

/-- All pieces of a text cut at every glyph that satisfies `p`. -/
def split (p : Glyph → Bool) (t : Text) : List Text :=
  (t.pieces p).1 :: (t.pieces p).2

/-- The part of a text before the first occurrence of `g`, or all of it. -/
def upTo (g : Glyph) (t : Text) : Text :=
  t.takeWhile (· ≠ g)

/-- The parts of a text around the last occurrence of `g`, if there is one. -/
def cutLast? (g : Glyph) (t : Text) : Option (Text × Text) :=
  let tail := t.reverse.takeWhile (· ≠ g)
  if tail.length < t.length then
    some (t.take (t.length - tail.length - 1), tail.reverse)
  else none

/-- Writes texts one after another with `gap` between them. -/
def join (gap : Text) (ts : List Text) : Text :=
  (ts.intersperse gap).flatten

/-- A text with a line feed behind it. -/
def line (t : Text) : Text :=
  t ++ [.scalar '\n']

/-- Pads a text with spaces on the right to at least `width` glyphs. -/
def padRight (width : Nat) (t : Text) : Text :=
  t ++ List.replicate (width - t.length) (.scalar ' ')

/-- Pads a text with spaces on the left to at least `width` glyphs. -/
def padLeft (width : Nat) (t : Text) : Text :=
  List.replicate (width - t.length) (.scalar ' ') ++ t

end Text

end StackMachine
