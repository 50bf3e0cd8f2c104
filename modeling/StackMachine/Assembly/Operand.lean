import StackMachine.Assembly.Error
import StackMachine.Dictionary
import StackMachine.Instr
import StackMachine.Text.Literal

/-!
# Operands

An operand is a number or a label, optionally between square brackets. Decimals are
signed. Hexadecimal and binary literals are bit patterns: they may use all 24 bits and
are read back with their sign. A tilde in front of a literal complements it.

## Main definitions

* `Assembly.isIdentifier`: the names that labels can have.
* `Assembly.number?`: the value of a literal.
* `Assembly.valueOf`: the value of a word.
* `Assembly.Operand`, `Assembly.operandOf`: the operand that a word stands for.
-/

namespace StackMachine

namespace Assembly

/-! ### Identifiers -/

/-- Whether a glyph can begin an identifier. -/
def startsIdentifier : Glyph → Bool
  | .scalar c => c.isAlpha || c = '_'
  | .stray _ => false

/-- Whether a glyph can continue an identifier. -/
def continuesIdentifier : Glyph → Bool
  | .scalar c => c.isAlphanum || c = '_' || c = '.'
  | .stray _ => false

/-- Whether a word is an identifier. -/
def isIdentifier : Text → Bool
  | [] => false
  | g :: rest => startsIdentifier g && rest.all continuesIdentifier

/-! ### Literals -/

/-- The base of a bit pattern and its digits, if a word has the mark of one. -/
def pattern? : Text → Option (Nat × Text)
  | .scalar '0' :: .scalar m :: digits =>
    if m = 'x' ∨ m = 'X' then some (16, digits)
    else if m = 'b' ∨ m = 'B' then some (2, digits)
    else none
  | _ => none

/-- The value of a literal: a 63-bit pattern or a signed 64-bit decimal. -/
def number? (word : Text) : Option Int :=
  match pattern? word with
  | some (base, digits) =>
    match Literal.natural? base digits with
    | some n => if n < 0x8000000000000000 then some (n : Int) else none
    | none => none
  | none => Literal.integer? 64 word

/-- A word without a tilde in front, and whether it had one. A tilde alone is no such mark. -/
def takeTilde : Text → Bool × Text
  | .scalar '~' :: g :: rest => (true, g :: rest)
  | word => (false, word)

/-- A word without the quotes at its two ends. -/
def trimQuotes (word : Text) : Text :=
  ((word.dropWhile (· = .scalar '\'')).reverse.dropWhile (· = .scalar '\'')).reverse

/-- Whether a word starts with a quote and goes on: a character that was not replaced. -/
def isQuote : Text → Bool
  | .scalar '\'' :: _ :: _ => true
  | _ => false

/-- The value of a word. -/
def valueOf (word : Text) : Except Cause Int :=
  let (inverted, body) := takeTilde word
  if isQuote body then .error (.badCharacter (trimQuotes body))
  else
    match number? body with
    | none => .error (.badNumber body)
    | some n => .ok (if inverted then -n - 1 else n)

/-! ### Operands -/

/-- An operand as it is written. -/
inductive Operand where
  /-- A number. -/
  | value (n : Int)
  /-- A label, whose address is not known yet. -/
  | label (name : Text)
  deriving DecidableEq

/-- The number that an instruction holds for a literal of a given value. -/
def fitted (word : Text) (n : Int) : Except Cause Int :=
  if n < Instr.operandMin then .error (.operandRange n)
  else if (pattern? (takeTilde word).2).isSome && n ≤ Instr.patternMax then
    .ok (Instr.signExtend n)
  else if n ≤ Instr.operandMax then .ok n
  else .error (.operandRange n)

/-- The operand that a word without brackets stands for. -/
def plainOperand (word : Text) : Except Cause Operand :=
  match valueOf word with
  | .ok n => (fitted word n).map .value
  | .error cause => if isIdentifier word then .ok (.label word) else .error cause

/-- The word between square brackets, if there are both and one is not empty. -/
def bracketed? (word : Text) : Option Text :=
  if word.getLast? = some (.scalar ']') && 3 ≤ word.length then some word.tail.dropLast else none

/-- The operand that a word stands for; inside brackets an equate is replaced first. -/
def operandOf (equates : Dictionary Text) (word : Text) : Except Cause Operand :=
  if word.head? = some (.scalar '[') then
    match bracketed? word with
    | none => .error (.badNumber word)
    | some inner => plainOperand ((equates.find? inner).getD inner)
  else plainOperand word

end Assembly

end StackMachine
