import StackMachine.Number.Fraction
import StackMachine.Text.Letter
import StackMachine.Text.Literal

/-!
# Tokens of expressions

A compile-time expression is first cut into tokens: numbers, strings, names and marks.
The letters `r` and `b` before a string leave its backslashes alone and make it bytes.
Blanks between tokens are spaces and tabs, and a number sign starts a comment. A carriage
return ends a line: inside brackets it is a blank, outside it ends the expression, and what
follows are further statements. A zero character ends the text.

## Main definitions

* `Expression.Token`, `Expression.Mark`: tokens and the marks among them.
* `Expression.tokens?`: the tokens of a text.
-/

namespace StackMachine

namespace Assembly

namespace Expression

/-- The operators, brackets and keywords of expressions. -/
inductive Mark where
  | plus | minus | star | starStar | slash | slashSlash | percent
  | ampersand | bar | caret | tilde | shiftLeft | shiftRight
  | less | greater | lessEqual | greaterEqual | equal | notEqual
  | assign | comma | colon | dot
  | closeParen | openBracket | closeBracket
  | andWord | orWord | notWord | inWord | notInWord | ifWord | elseWord | passWord
  deriving DecidableEq

/-- A token of an expression. -/
inductive Token where
  | int (n : Nat)
  | float (x : Float)
  | string (bytes : List UInt8)
  /-- A string that is no text. -/
  | bytes (bytes : List UInt8)
  | name (t : Text)
  | mark (m : Mark)
  /-- An opening parenthesis, with a number of its own. -/
  | openParen (number : Nat)
  /-- The word that begins a function, with a number of its own. -/
  | lambdaWord (number : Nat)
  /-- The end of a line outside every bracket. -/
  | newline

/-! ### Classes of characters -/

/-- Whether a glyph is a decimal digit. -/
def isDigit (g : Glyph) : Bool :=
  (Literal.digit? 10 g).isSome

/-- Whether a glyph can begin a name. -/
def startsName : Glyph → Bool
  | .scalar c => c = '_' || Letter.contains c
  | .stray _ => false

/-- Whether a glyph can continue a name. -/
def continuesName (g : Glyph) : Bool :=
  isDigit g || startsName g

/-- The words that are marks. -/
def keywords : List (Text × Mark) :=
  [("and", .andWord), ("or", .orWord), ("not", .notWord), ("in", .inWord), ("if", .ifWord),
   ("else", .elseWord), ("pass", .passWord)]

/-- The words that have no place in an expression and are no names either. -/
def reserved : List Text :=
  ["as", "async", "await", "break", "class", "continue", "def", "del", "elif", "except",
   "finally", "for", "from", "global", "import", "is", "load", "nonlocal", "raise", "return",
   "try", "while", "with", "yield"]

/-- The token of a word, unless the word is reserved. The word that begins a function gets a
number. -/
def wordToken? (number : Nat) (word : Text) : Option Token :=
  match keywords.find? (·.1 = word) with
  | some (_, m) => some (.mark m)
  | none =>
    if word = "lambda" then some (.lambdaWord number)
    else if reserved.any (· = word) then none
    else some (.name word)

/-- The marks written with two characters. -/
def doubleMark? : Char → Char → Option Mark
  | '*', '*' => some .starStar
  | '/', '/' => some .slashSlash
  | '<', '<' => some .shiftLeft
  | '>', '>' => some .shiftRight
  | '<', '=' => some .lessEqual
  | '>', '=' => some .greaterEqual
  | '=', '=' => some .equal
  | '!', '=' => some .notEqual
  | _, _ => none

/-- The marks written with one character. -/
def singleMark? : Char → Option Mark
  | '+' => some .plus
  | '-' => some .minus
  | '*' => some .star
  | '/' => some .slash
  | '%' => some .percent
  | '&' => some .ampersand
  | '|' => some .bar
  | '^' => some .caret
  | '~' => some .tilde
  | '<' => some .less
  | '>' => some .greater
  | '=' => some .assign
  | ',' => some .comma
  | ':' => some .colon
  | '.' => some .dot
  | ')' => some .closeParen
  | '[' => some .openBracket
  | ']' => some .closeBracket
  | _ => none

/-! ### Numbers -/

/-- The number with the digits `digits` and the decimal exponent `exponent`, unless it is too
large for a floating-point number. -/
def floatOf? (digits : Text) (exponent : Int) : Option Float :=
  (Literal.digits? 10 0 digits).bind fun mantissa =>
    (({ num := mantissa } : Fraction).scale 10 exponent).nearest?

/-- The value of an exponent, which stops growing once it has reached ten thousand. -/
def exponentValue (digits : Text) : Nat :=
  digits.foldl
    (fun value g => if value < 10000 then value * 10 + (Literal.digit? 10 g).getD 0 else value) 0

/-- The exponent of a floating-point number behind its mark, and the text behind it. -/
def exponent? (t : Text) : Option (Int × Text) :=
  let (negative, body) := Literal.takeSign t
  let digits := body.takeWhile isDigit
  if digits.isEmpty then none
  else some (Literal.withSign negative (exponentValue digits), body.dropWhile isDigit)

/-- A floating-point number whose digits before and behind the point are given, from the text
behind them, where an exponent may stand. -/
def floatToken? (whole fraction rest : Text) : Option (Token × Text) :=
  let finish (exponent : Int) (rest : Text) : Option (Token × Text) :=
    (floatOf? (whole ++ fraction) (exponent - fraction.length)).map fun x => (.float x, rest)
  match rest with
  | .scalar e :: body =>
    if e = 'e' ∨ e = 'E' then (exponent? body).bind fun (n, rest) => finish n rest
    else finish 0 rest
  | _ => finish 0 rest

/-- An integer behind a base mark that is at most `most`, if there is such a bound. -/
def basedToken? (base : Nat) (most : Option Nat) (t : Text) : Option (Token × Text) :=
  let isIn (g : Glyph) : Bool := (Literal.digit? base g).isSome
  (Literal.natural? base (t.takeWhile isIn)).bind fun n =>
    if most.all (n ≤ ·) then some (.int n, t.dropWhile isIn) else none

/-- A decimal number; leading zeros are allowed only in zero and in floating-point numbers. -/
def decimalToken? (t : Text) : Option (Token × Text) :=
  let whole := t.takeWhile isDigit
  match t.dropWhile isDigit with
  | .scalar '.' :: body =>
    floatToken? whole (body.takeWhile isDigit) (body.dropWhile isDigit)
  | rest =>
    let isFloat := rest.head? = some (.scalar 'e') || rest.head? = some (.scalar 'E')
    if isFloat then floatToken? whole [] rest
    else if whole.head? = some (.scalar '0') && !whole.all (· = .scalar '0') then none
    else (Literal.natural? 10 whole).map fun n => (.int n, rest)

/-- The largest octal or binary number. Other numbers have no bound. -/
def largestMarked : Nat := 0x7FFFFFFFFFFFFFFF

/-- The number at the front of a text. -/
def number? : Text → Option (Token × Text)
  | .scalar '0' :: .scalar m :: rest =>
    if m = 'x' ∨ m = 'X' then basedToken? 16 none rest
    else if m = 'o' ∨ m = 'O' then basedToken? 8 (some largestMarked) rest
    else if m = 'b' ∨ m = 'B' then basedToken? 2 (some largestMarked) rest
    else decimalToken? (.scalar '0' :: .scalar m :: rest)
  | t => decimalToken? t

/-! ### Strings -/

/-- The byte that a letter stands for behind a backslash. -/
def simpleEscape? : Char → Option UInt8
  | 'a' => some 0x07
  | 'b' => some 0x08
  | 'f' => some 0x0C
  | 'n' => some 0x0A
  | 'r' => some 0x0D
  | 't' => some 0x09
  | 'v' => some 0x0B
  | '\\' => some 0x5C
  | '\'' => some 0x27
  | '"' => some 0x22
  | _ => none

/-- How a string is written. -/
structure StringForm where
  /-- Whether a backslash stands for itself. -/
  raw : Bool := false
  /-- Whether the string is no text, so that an escape may give any byte. -/
  binary : Bool := false
  deriving DecidableEq

/-- The largest byte that an escape gives by its code. -/
def StringForm.largestByte (form : StringForm) : Nat :=
  if form.binary then 0xFF else 0x7F

/-- The token of a string. -/
def StringForm.token (form : StringForm) (bytes : List UInt8) : Token :=
  if form.binary then .bytes bytes else .string bytes

/-- The byte with a code of at most `most` written by `digits`, in the form of an escape. -/
def byteEscape? (most base : Nat) (digits rest : Text) : Option (List UInt8 × Text) :=
  (Literal.natural? base digits).bind fun n =>
    if n ≤ most then some ([UInt8.ofNat n], rest) else none

/-- The character with a code of `width` hexadecimal digits at the front of a text. -/
def codeEscape? (width : Nat) (t : Text) : Option (List UInt8 × Text) :=
  let digits := t.take width
  if digits.length < width then none
  else
    (Literal.natural? 16 digits).bind fun n =>
      if n.isValidChar then some (String.utf8EncodeChar (Char.ofNat n), t.drop width) else none

/-- The bytes that a glyph stands for in a string: a line end is a line feed, and a stray byte
becomes the replacement character. -/
def stringBytes (g : Glyph) : List UInt8 :=
  if g = .scalar '\r' then [0x0A] else String.utf8EncodeChar g.toChar

/-- The bytes of the escape sequence whose backslash stands before a text, and the text behind
the sequence. An escaped line end is left out. -/
def escape? (most : Nat) : Text → Option (List UInt8 × Text)
  | .scalar c :: rest =>
    match simpleEscape? c with
    | some b => some ([b], rest)
    | none =>
      if c = '\r' then some ([], rest)
      else if (Literal.digit? 8 (.scalar c)).isSome then
        let octal (g : Glyph) : Bool := (Literal.digit? 8 g).isSome
        let digits := ((.scalar c :: rest).take 3).takeWhile octal
        byteEscape? most 8 digits ((.scalar c :: rest).drop digits.length)
      else if c = 'x' then
        let digits := rest.take 2
        if digits.length < 2 then none else byteEscape? most 16 digits (rest.drop 2)
      else if c = 'u' then codeEscape? 4 rest
      else if c = 'U' then codeEscape? 8 rest
      else none
  | _ => none

/-- The bytes behind a backslash in a string of a form, with those of the backslash if it stands
for itself, and the text behind them. -/
def StringForm.escape? (form : StringForm) (t : Text) : Option (List UInt8 × Text) :=
  if form.raw then
    match t with
    | [] => none
    | g :: rest => some (0x5C :: stringBytes g, rest)
  else Expression.escape? form.largestByte t

/-- The bytes of a string up to its closing quotes, and the text behind them; `seen` holds the
bytes read so far, last first. Only a string between three quotes goes on behind a line end. -/
def stringBody? (form : StringForm) (quotes : Text) :
    Nat → List UInt8 → Text → Option (Token × Text)
  | 0, _, _ => none
  | _, _, [] => none
  | fuel + 1, seen, g :: rest =>
    if quotes.isPrefixOf (g :: rest) then
      some (form.token seen.reverse, (g :: rest).drop quotes.length)
    else if g = .scalar '\\' then
      (form.escape? rest).bind fun (bytes, rest) =>
        stringBody? form quotes fuel (bytes.reverse ++ seen) rest
    else if g = .scalar '\r' ∧ quotes.length = 1 then none
    else stringBody? form quotes fuel ((stringBytes g).reverse ++ seen) rest

/-- The string of a form whose opening quote is `quote`, from the text behind that quote, within a
bound on its length. Three quotes open a string that only three quotes close. -/
def stringToken? (fuel : Nat) (form : StringForm) (quote : Char) (t : Text) :
    Option (Token × Text) :=
  let q := Glyph.scalar quote
  if [q, q].isPrefixOf t then stringBody? form [q, q, q] fuel [] (t.drop 2)
  else stringBody? form [q] fuel [] t

/-- Whether a character is a quote. -/
def isQuote (c : Char) : Bool :=
  c = '"' || c = '\''

/-- The form of the string at the front of a text, its quote, and the text behind the quote. -/
def stringStart? (t : Text) : Option (StringForm × Char × Text) :=
  let (form, body) : StringForm × Text :=
    match t with
    | .scalar 'r' :: .scalar 'b' :: rest => ({ raw := true, binary := true }, rest)
    | .scalar 'r' :: rest => ({ raw := true }, rest)
    | .scalar 'b' :: rest => ({ binary := true }, rest)
    | rest => ({}, rest)
  match body with
  | .scalar q :: rest => if isQuote q then some (form, q, rest) else none
  | _ => none

/-! ### Texts -/

/-- The mark at the front of a text. -/
def mark? (c : Char) (rest : Text) : Option (Mark × Text) :=
  let double := match rest with
    | .scalar d :: rest => (doubleMark? c d).map fun m => (m, rest)
    | _ => none
  double.or ((singleMark? c).map fun m => (m, rest))

/-- The token at the front of a text that starts with a character that is no blank. The number is
that of the token and bounds its length. -/
def first? (number : Nat) (c : Char) (rest : Text) : Option (Token × Text) :=
  let t := Glyph.scalar c :: rest
  let fraction := c = '.' && (rest.head?.map isDigit).getD false
  if c.isDigit || fraction then number? t
  else
    match stringStart? t with
    | some (form, quote, behind) => stringToken? number form quote behind
    | none =>
      if startsName c then
        (wordToken? number (t.takeWhile continuesName)).map fun token =>
          (token, t.dropWhile continuesName)
      else if c = '(' then some (.openParen number, rest)
      else (mark? c rest).map fun (m, rest) => (.mark m, rest)

/-- Whether a character is a blank between tokens. -/
def isBlank (g : Glyph) : Bool :=
  g = .scalar ' ' || g = .scalar '\t'

/-- Whether a glyph ends a comment. -/
def endsComment (g : Glyph) : Bool :=
  g = .scalar '\r' || g = .scalar '\x00'

/-- Whether the rest of a line holds no token. -/
def isBare (t : Text) : Bool :=
  match t.dropWhile isBlank with
  | [] => true
  | g :: _ => g = .scalar '#' || endsComment g

/-- The number of open brackets behind a token, unless it closes a bracket that is not open. -/
def depthBehind? (depth : Nat) : Token → Option Nat
  | .openParen _ | .mark .openBracket => some (depth + 1)
  | .mark .closeParen | .mark .closeBracket => if depth = 0 then none else some (depth - 1)
  | _ => some depth

/-- Puts a token behind some others, which stand last first. The two words of a negated membership
test become one token. -/
def pushToken (token : Token) (seen : List Token) : List Token :=
  match token, seen with
  | .mark .inWord, .mark .notWord :: before => .mark .notInWord :: before
  | token, seen => token :: seen

/-- The tokens of a text with `depth` brackets open before it, within a bound on their number;
`seen` holds the tokens before, last first. A backslash before the end of a line continues the
line. Outside brackets, only a line without tokens may start with a blank. -/
def tokensWithin? : Nat → Nat → List Token → Text → Option (List Token)
  | _, _, seen, [] => some seen.reverse
  | 0, _, _, _ => none
  | fuel + 1, depth, seen, g :: rest =>
    match g with
    | .stray _ => none
    | .scalar c =>
      if c = '\x00' then some seen.reverse
      else if c = ' ' ∨ c = '\t' then tokensWithin? fuel depth seen rest
      else if c = '#' then tokensWithin? fuel depth seen (rest.dropWhile (!endsComment ·))
      else if c = '\r' then
        if depth ≠ 0 then tokensWithin? fuel depth seen rest
        else if (rest.head?.map isBlank).getD false && !isBare rest then none
        else tokensWithin? fuel depth (.newline :: seen) rest
      else if c = '\\' ∧ rest.isEmpty then some seen.reverse
      else if c = '\\' then
        if rest.head? = some (.scalar '\r') then tokensWithin? fuel depth seen rest.tail else none
      else
        (first? (fuel + 1) c rest).bind fun (token, rest) =>
          (depthBehind? depth token).bind fun depth =>
            tokensWithin? fuel depth (pushToken token seen) rest

/-- The tokens of a text. -/
def tokens? (t : Text) : Option (List Token) :=
  tokensWithin? t.length 0 [] t

end Expression

end Assembly

end StackMachine
