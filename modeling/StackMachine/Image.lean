/-!
# Image files

An image file holds instruction words, four bytes each, the lowest byte first.

## Main definitions

* `Image.write`: the bytes of an image.
* `Image.read?`: the words of an image file.
-/

namespace StackMachine

namespace Image

/-- The four bytes of a word, lowest first. -/
def wordBytes (word : UInt32) : List UInt8 :=
  [UInt8.ofNat word.toNat, UInt8.ofNat (word.toNat / 0x100), UInt8.ofNat (word.toNat / 0x10000),
   UInt8.ofNat (word.toNat / 0x1000000)]

/-- The word of four bytes, lowest first. -/
def wordOf (a b c d : UInt8) : UInt32 :=
  UInt32.ofNat (a.toNat + 0x100 * b.toNat + 0x10000 * c.toNat + 0x1000000 * d.toNat)

/-- The bytes of an image. -/
def write (words : List UInt32) : List UInt8 :=
  words.flatMap wordBytes

/-- The words of an image file, unless its last word is cut short. -/
def read? : List UInt8 → Option (List UInt32)
  | [] => some []
  | a :: b :: c :: d :: rest => (read? rest).map (wordOf a b c d :: ·)
  | _ => none

/-- The wording of the error for a file whose last word is cut short. -/
def cutShort : String :=
  "image is not a multiple of 4 bytes"

end Image

end StackMachine
