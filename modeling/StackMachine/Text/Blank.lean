import StackMachine.Text.Glyph

/-!
# Blank space

Two classes of blanks divide source text. Lines are trimmed and cut into words at
Unicode white space; around the colon of a label only the plain ASCII blanks count.

## Main definitions

* `Glyph.isBlank`, `Glyph.isPlainBlank`: the two classes.
* `Text.trim`: a text without blanks at its ends.
* `Text.fields`: the words of a text.
-/

namespace StackMachine

namespace Glyph

/-- Unicode white space. -/
def isBlank : Glyph → Bool
  | scalar c =>
    let n := c.toNat
    (0x09 ≤ n && n ≤ 0x0D) || n == 0x20 || n == 0x85 || n == 0xA0 || n == 0x1680 ||
      (0x2000 ≤ n && n ≤ 0x200A) || n == 0x2028 || n == 0x2029 || n == 0x202F ||
      n == 0x205F || n == 0x3000
  | stray _ => false

/-- The blanks that may stand before the colon of a label: tab, line feed, form feed,
carriage return and space. -/
def isPlainBlank : Glyph → Bool
  | scalar c => c == '\t' || c == '\n' || c == '\x0c' || c == '\r' || c == ' '
  | stray _ => false

end Glyph

namespace Text

/-- A text without the white space at its two ends. -/
def trim (t : Text) : Text :=
  ((t.dropWhile Glyph.isBlank).reverse.dropWhile Glyph.isBlank).reverse

/-- The words of a text, divided by white space. -/
def fields (t : Text) : List Text :=
  (t.split Glyph.isBlank).filter (! ·.isEmpty)

end Text

end StackMachine
