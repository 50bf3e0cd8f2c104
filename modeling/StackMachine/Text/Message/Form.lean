import StackMachine.Text.Quoted

/-!
# Arguments in a form

The arguments of a message are texts and integers. A place holder of a template names
the form in which it shows its argument: a verb that selects the kind of form, and
marks, a width and a precision that refine it. Integers shown as decimals carry
thousands separators, also between the zeros that fill their width; all other forms of
integers do without.

## Main definitions

* `Message.Arg`: an argument of a message.
* `Message.Form`: the marks, width and precision of a place holder.
* `Message.shown`: an argument in a form.
-/

namespace StackMachine

namespace Message

/-- An argument of a message. -/
inductive Arg where
  | text (t : Text)
  | int (n : Int)
  deriving DecidableEq

instance : Coe Text Arg := ⟨Arg.text⟩

instance : Coe String Arg := ⟨fun s => Arg.text (Text.ofString s)⟩

instance : Coe Int Arg := ⟨Arg.int⟩

/-- The name of the kind of an argument. -/
def Arg.kind : Arg → Text
  | .text _ => "string"
  | .int _ => "int64"

/-- How an argument is refined beyond its verb. -/
structure Form where
  /-- Whether the base of a number is marked, or a text is quoted with backquotes. -/
  marked : Bool := false
  /-- Whether the argument is shown as it would stand in a source text. -/
  verbatim : Bool := false
  /-- Whether the width is filled with zeros. -/
  zeros : Bool := false
  /-- Whether integers always have a sign, and quoted text is ASCII only. -/
  plus : Bool := false
  /-- Whether the width is filled on the right. -/
  left : Bool := false
  /-- Whether a blank stands for a missing sign and between bytes. -/
  spaced : Bool := false
  /-- The least width. -/
  width : Option Nat := none
  /-- The least number of digits, or the largest number of characters. -/
  precision : Option Nat := none
  deriving DecidableEq

/-- Blanks that decimals are filled with. -/
structure Padding where
  /-- Whether the blanks stand on the right. -/
  left : Bool
  /-- The least width. -/
  width : Nat
  deriving DecidableEq

/-- Fills a text to a width on the right or on the left. -/
def fillTo (left : Bool) (blank : Char) (width : Nat) (t : Text) : Text :=
  let blanks : Text := List.replicate (width - t.length) (.scalar blank)
  if left then t ++ blanks else blanks ++ t

/-- A text written with some characters. -/
def ofChars (cs : List Char) : Text :=
  cs.map Glyph.scalar

namespace Form

/-- Fills a text to the width of a form, with zeros if the form says so. -/
def filled (f : Form) (t : Text) : Text :=
  fillTo f.left (if f.zeros then '0' else ' ') (f.width.getD 0) t

/-- Fills a text to the width of a form with spaces. -/
def spread (f : Form) (t : Text) : Text :=
  { f with zeros := false }.filled t

/-- The sign of an integer. -/
def sign (f : Form) (n : Int) : Text :=
  if n < 0 then "-" else if f.plus then "+" else if f.spaced then " " else ""

/-! ### Integers -/

/-- The least number of digits of a decimal, separators not counted. -/
def leastDecimal (f : Form) : Nat :=
  match f.precision, f.width with
  | some p, _ => p % 0x100
  | none, some w =>
    let room := if f.plus || f.spaced then w - 1 else w
    if f.zeros ∧ 1 < room then room % 0x100 else 1
  | none, none => 1

/-- The blanks that a decimal is filled with, after a decimal filled with `before`: a form with a
precision and no width keeps the blanks of the decimal before it. -/
def padding (f : Form) (before : Option Padding) : Option Padding :=
  match f.width with
  | some w => some { left := f.left, width := w % 0x10000 }
  | none => if f.precision.isSome then before else none

/-- An integer as a decimal with thousands separators. -/
def decimal (f : Form) (blanks : Option Padding) (n : Int) : Text :=
  let digits := if n = 0 then [] else Nat.toDigits 10 n.natAbs
  let t := f.sign n ++ ofChars (Numeral.groupDigits (Numeral.padZeros f.leastDecimal digits))
  match blanks with
  | some p => fillTo p.left ' ' p.width t
  | none => t

/-- The least number of digits of an integer without separators. -/
def leastDigits (f : Form) (n : Int) : Nat :=
  match f.precision, f.width with
  | some p, _ => p
  | none, some w => if f.zeros then w - (f.sign n).length else 0
  | none, none => 0

/-- The mark of a base in front of some digits. -/
def baseMark (f : Form) (base : Nat) (digits : List Char) : List Char :=
  if !f.marked then []
  else if base = 8 then (if digits.head? = some '0' then [] else ['0'])
  else if base = 16 then ['0', 'x']
  else []

/-- An integer in a base without separators; nothing stands for a zero without digits. -/
def inBase (f : Form) (base : Nat) (capital : Bool) (n : Int) : Text :=
  if f.precision = some 0 ∧ n = 0 then f.spread []
  else
    let digits := Numeral.padZeros (f.leastDigits n) (Nat.toDigits base n.natAbs)
    let body := f.baseMark base digits ++ digits
    f.spread (f.sign n ++ ofChars (if capital then body.map Char.toUpper else body))

/-- The 64-bit code of an integer. -/
def codeOf (n : Int) : Nat :=
  (n % 0x10000000000000000).toNat

/-- The character with a code, or the replacement character. -/
def charOf (code : Nat) : Char :=
  if code.isValidChar then Char.ofNat code else '\uFFFD'

/-- The character with a code, if the code is one of a printable character. -/
def printable? (code : Nat) : Option Char :=
  if code.isValidChar ∧ Printable.contains (Char.ofNat code) then some (Char.ofNat code) else none

/-- A code point in the notation of the Unicode standard, with its character if marked. -/
def codePoint (f : Form) (code : Nat) : Text :=
  let digits := Numeral.padZeros (max 4 (f.precision.getD 4)) (Nat.toDigits 16 code)
  let character :=
    match printable? code with
    | some c => if f.marked then [' ', '\'', c, '\''] else []
    | none => []
  f.spread (ofChars (['U', '+'] ++ digits.map Char.toUpper ++ character))

/-- An integer in a form, if the verb knows integers; `blanks` are those for decimals. -/
def int? (f : Form) (blanks : Option Padding) (n : Int) : Glyph → Option Text
  | .scalar 'd' | .scalar 'v' =>
    some (if f.marked || f.verbatim then f.inBase 10 false n else f.decimal blanks n)
  | .scalar 'b' => some (f.inBase 2 false n)
  | .scalar 'o' => some (f.inBase 8 false n)
  | .scalar 'x' => some (f.inBase 16 false n)
  | .scalar 'X' => some (f.inBase 16 true n)
  | .scalar 'c' => some (f.filled [.scalar (charOf (codeOf n))])
  | .scalar 'q' =>
    if codeOf n ≤ 0x10FFFF then some (f.filled (Quoted.character f.plus (charOf (codeOf n))))
    else none
  | .scalar 'U' => some (f.codePoint (codeOf n))
  | _ => none

/-! ### Texts -/

/-- The beginning of a text that the precision leaves. -/
def cut (f : Form) (t : Text) : Text :=
  match f.precision with
  | some p => t.take p
  | none => t

/-- Whether a text can stand between backquotes. -/
def canBackquote (t : Text) : Bool :=
  t.all fun
    | .scalar c => c = '\t' || (0x20 ≤ c.toNat && c ≠ '\x7f' && c ≠ '\uFEFF' && c ≠ Char.ofNat 0x60)
    | .stray _ => false

/-- A text between quotes. -/
def quoted (f : Form) (t : Text) : Text :=
  let backquote : Text := [.scalar (Char.ofNat 0x60)]
  if f.marked && canBackquote (f.cut t) then f.filled (backquote ++ f.cut t ++ backquote)
  else f.filled (Quoted.textIn { ascii := f.plus } (f.cut t))

/-- The two hexadecimal digits of a byte. -/
def byteDigits (b : UInt8) : List Char :=
  Numeral.padded 16 2 b.toNat

/-- The bytes of a text in hexadecimal. -/
def hexBytes (f : Form) (capital : Bool) (t : Text) : Text :=
  let bytes := match f.precision with
    | some p => t.bytes.take p
    | none => t.bytes
  let mark := if f.marked then ['0', 'x'] else []
  let body :=
    if bytes.isEmpty then []
    else if f.spaced then ((bytes.map fun b => mark ++ byteDigits b).intersperse [' ']).flatten
    else mark ++ bytes.flatMap byteDigits
  f.filled (ofChars (if capital then body.map Char.toUpper else body))

/-- A text in a form, if the verb knows texts. -/
def text? (f : Form) (t : Text) : Glyph → Option Text
  | .scalar 'v' => some (if f.verbatim then f.quoted t else f.filled (f.cut t))
  | .scalar 's' => some (f.filled (f.cut t))
  | .scalar 'q' => some (f.quoted t)
  | .scalar 'x' => some (f.hexBytes false t)
  | .scalar 'X' => some (f.hexBytes true t)
  | .scalar 'm' => some t
  | _ => none

end Form

/-! ### Arguments -/

/-- An argument in a form, if the verb knows arguments of its kind. -/
def shown? (f : Form) (blanks : Option Padding) (verb : Glyph) (arg : Arg) : Option Text :=
  if verb = .scalar 'T' then some (f.filled (f.cut arg.kind))
  else
    match arg with
    | .text t => f.text? t verb
    | .int n => f.int? blanks n verb

/-- The kind of an argument, an equals sign, and the argument in its own form. -/
def described (f : Form) (blanks : Option Padding) (arg : Arg) : Text :=
  arg.kind ++ "=" ++ (shown? f blanks (.scalar 'v') arg).getD []

/-- An argument in a form; a verb that does not know it becomes a complaint. -/
def shown (f : Form) (blanks : Option Padding) (verb : Glyph) (arg : Arg) : Text :=
  (shown? f blanks verb arg).getD
    (("%!" : Text) ++ [verb] ++ "(" ++ described f blanks arg ++ ")")

/-- Whether an argument is shown as a decimal with separators. -/
def showsDecimal (f : Form) (verb : Glyph) : Arg → Bool
  | .text _ => false
  | .int n =>
    verb ≠ .scalar 'T' && !f.marked && !f.verbatim
      && (verb = .scalar 'd' || verb = .scalar 'v' || (f.int? none n verb).isNone)

end Message

end StackMachine
