import StackMachine.Assembly.Interpreter
import StackMachine.Assembly.Operand
import StackMachine.Text.Blank
import StackMachine.Text.Numeral

/-!
# Substitution in a line

Before a line is cut into words, its quoted characters and its expressions are replaced
by numbers, and its labels are taken off.

## Main definitions

* `Assembly.replaceCharacters`: a line with its quoted characters as numbers.
* `Assembly.replaceExpressions`: a line with its expressions as numbers.
* `Assembly.takeLabel?`: a label at the front of a line.
* `Assembly.replaceEquates`: words with equates in the place of their names.
-/

namespace StackMachine

namespace Assembly

/-! ### Quoted characters -/

/-- The code of the character that a letter stands for behind a backslash. -/
def escapeCode? : Glyph → Option Nat
  | .scalar '\\' => some 92
  | .scalar 'n' => some 10
  | .scalar 'r' => some 13
  | .scalar 't' => some 9
  | .scalar '0' => some 0
  | _ => none

/-- The code of a glyph of one byte, other than the backslash. -/
def plainCode? : Glyph → Option Nat
  | .scalar c => if c.toNat < 0x80 ∧ c ≠ '\\' then some c.toNat else none
  | .stray b => some b.toNat

/-- The number of a quoted character, or the quotation itself where it has none. -/
def characterText (code : Option Nat) (quotation : Text) : Text :=
  match code with
  | some n => Numeral.decimal n
  | none => quotation

/-- A line with its quoted characters as numbers. A quotation is one glyph, or a backslash and a
glyph, between single quotes; one that has no number stays as it is. -/
def replaceCharacters : Text → Text
  | .scalar '\'' :: .scalar '\\' :: g :: .scalar '\'' :: rest =>
    if g = .scalar '\'' then
      .scalar '\'' :: .scalar '\\' :: .scalar '\'' :: replaceCharacters (.scalar '\'' :: rest)
    else
      characterText (escapeCode? g) [.scalar '\'', .scalar '\\', g, .scalar '\'']
        ++ replaceCharacters rest
  | .scalar '\'' :: g :: .scalar '\'' :: rest =>
    if g = .scalar '\'' then
      .scalar '\'' :: replaceCharacters (g :: .scalar '\'' :: rest)
    else
      characterText (plainCode? g) [.scalar '\'', g, .scalar '\''] ++ replaceCharacters rest
  | g :: rest => g :: replaceCharacters rest
  | [] => []

/-! ### Expressions -/

/-- The values of the equates that have one. -/
def equateValue (equates : Dictionary Text) (name : Text) : Option Int :=
  match (equates.find? name).map valueOf with
  | some (.ok n) => some n
  | _ => none

/-- The expression at the front of the text behind a dollar sign, and the text behind it: it
reaches from an opening parenthesis to the last closing one. -/
def takeExpression? : Text → Option (Text × Text)
  | .scalar '(' :: rest => Text.cutLast? (.scalar ')') rest
  | _ => none

/-- The text behind a dollar sign with its expression as a number; fails with the expression that
has no value. -/
def replaceExpression [Interpreter] (equates : Dictionary Text) (behind : Text) :
    Except Text Text :=
  match takeExpression? behind with
  | none => .ok (.scalar '$' :: behind)
  | some (expression, rest) =>
    match Expression.evaluate? (equateValue equates) expression with
    | some n => .ok (Text.ofString (Numeral.decimal n) ++ rest)
    | none => .error expression

/-- The last expression without a value among some results. -/
def lastFailure? : List (Except Text Text) → Option Text
  | [] => none
  | .ok _ :: rest => lastFailure? rest
  | .error expression :: rest => (lastFailure? rest).or (some expression)

/-- The texts among some results, one after another. -/
def successes : List (Except Text Text) → Text
  | [] => []
  | .ok t :: rest => t ++ successes rest
  | .error _ :: rest => successes rest

/-- A line with its expressions as numbers; the last one without a value is to blame. -/
def replaceExpressions [Interpreter] (equates : Dictionary Text) (line : Text) :
    Except Problem Text :=
  let (front, behind) := line.pieces (· = .scalar '$')
  let results := behind.map (replaceExpression equates)
  match lastFailure? results with
  | some expression =>
    .error (.plain ("$(" ++ expression ++ ")") (.badExpression expression))
  | none => .ok (front ++ successes results)

/-! ### Labels and equates -/

/-- A label at the front of a line and the line behind its colon. -/
def takeLabel? (line : Text) : Option (Text × Text) :=
  let inName (g : Glyph) : Bool := !g.isPlainBlank && g ≠ .scalar ':'
  let name := line.takeWhile inName
  match (line.dropWhile inName).dropWhile Glyph.isPlainBlank with
  | .scalar ':' :: rest => if name.isEmpty then none else some (name, Text.trim rest)
  | _ => none

/-- Words with equates in the place of their names. -/
def replaceEquates (equates : Dictionary Text) (words : List Text) : List Text :=
  words.map fun word => (equates.find? word).getD word

/-- A line of a macro body with every at sign replaced by a mark of its own. -/
def localise (mark : Text) (line : Text) : Text :=
  line.flatMap fun g => if g = .scalar '@' then mark else [g]

/-- The part of a source line before its comment, without surrounding blanks. -/
def stripComment (line : Text) : Text :=
  Text.trim (line.upTo (.scalar ';'))

end Assembly

end StackMachine
