import StackMachine.Text.Literal
import StackMachine.Text.Message.Form

/-!
# Place holders of templates

A place holder is a percent sign, marks, a width, a precision behind a point, and a verb.
A number in brackets chooses the argument by its place; it may stand before a width or a
precision that is taken from an argument, or before the verb. A width or precision that is
an asterisk is taken from the arguments.

## Main definitions

* `Message.Directive`: a place holder.
* `Message.Directive.read`: the place holder behind a percent sign.
* `Message.Directive.written`: what a place holder becomes.
-/

namespace StackMachine

namespace Message

/-- A number in brackets. -/
inductive Index where
  /-- The argument at a place, counted from one. -/
  | place (n : Nat)
  /-- Brackets without a number. -/
  | malformed
  deriving DecidableEq

/-- A width or a precision. -/
inductive Size where
  /-- A number in the template. -/
  | given (n : Nat)
  /-- The next argument. -/
  | argument
  deriving DecidableEq

/-- A place holder. -/
structure Directive where
  /-- The marks. -/
  form : Form := {}
  /-- The argument chosen before the width. -/
  widthIndex : Option Index := none
  /-- The width. -/
  width : Option Size := none
  /-- The argument chosen before the precision. -/
  precisionIndex : Option Index := none
  /-- The precision. -/
  precision : Option Size := none
  /-- The argument chosen before the verb. -/
  verbIndex : Option Index := none
  /-- Whether an argument is chosen where none is taken. -/
  misplaced : Bool := false
  /-- The verb; none at the end of a template. -/
  verb : Option Glyph := none
  deriving DecidableEq

namespace Directive

/-! ### Reading -/

/-- Reads marks. Filling with zeros goes with filling on the left only. -/
def readMarks (f : Form) : Text → Form × Text
  | .scalar '#' :: rest => readMarks { f with marked := true } rest
  | .scalar '0' :: rest => readMarks { f with zeros := !f.left } rest
  | .scalar '+' :: rest => readMarks { f with plus := true } rest
  | .scalar '-' :: rest => readMarks { f with left := true, zeros := false } rest
  | .scalar ' ' :: rest => readMarks { f with spaced := true } rest
  | t => (f, t)

/-- The largest number that may get another digit. -/
def largest : Nat := 1000000

/-- Reads the digits of a number behind digits worth `value`. A number with too many digits is
none, and the template is given up behind it. -/
def readDigits (value : Nat) : Text → Option Nat × Text
  | [] => (some value, [])
  | g :: rest =>
    match Literal.digit? 10 g with
    | none => (some value, g :: rest)
    | some d => if largest < value then (none, []) else readDigits (value * 10 + d) rest

/-- Reads a number. -/
def readNumber (t : Text) : Option Nat × Text :=
  match t.head?.bind (Literal.digit? 10) with
  | some _ => readDigits 0 t
  | none => (none, t)

/-- Reads a number in brackets. -/
def readIndex : Text → Option Index × Text
  | .scalar '[' :: rest =>
    let body := rest.takeWhile (· ≠ .scalar ']')
    let behind := rest.drop (body.length + 1)
    if rest.length < 2 ∨ body.length = rest.length then (some .malformed, rest)
    else
      match readNumber body with
      | (some n, []) => (some (.place n), behind)
      | _ => (some .malformed, behind)
  | t => (none, t)

/-- Reads a width or a precision. -/
def readSize : Text → Option Size × Text
  | .scalar '*' :: rest => (some .argument, rest)
  | t => ((readNumber t).1.map .given, (readNumber t).2)

/-- Whether an index names a place. -/
def isPlace : Option Index → Bool
  | some (.place _) => true
  | _ => false

/-- Reads the part of a place holder from the verb on; `chosen` says whether its argument was
chosen before. -/
def readVerb (d : Directive) (chosen : Bool) (t : Text) : Directive × Text :=
  let (index, t) := if chosen then (none, t) else readIndex t
  ({ d with verbIndex := index, verb := t.head? }, t.tail)

/-- Reads the part of a place holder from the precision on. -/
def readPrecision (d : Directive) (chosen : Bool) : Text → Directive × Text
  | .scalar '.' :: g :: rest =>
    let (index, t) := readIndex (g :: rest)
    let (size, t) := readSize t
    let size := size.getD (.given 0)
    readVerb
      { d with
        precisionIndex := index, precision := some size, misplaced := d.misplaced || chosen }
      (isPlace index && size ≠ .argument) t
  | t => readVerb d chosen t

/-- The place holder behind a percent sign, and the template behind it. -/
def read (t : Text) : Directive × Text :=
  let (form, t) := readMarks {} t
  let (index, t) := readIndex t
  let (size, t) := readSize t
  let chosen := isPlace index && size ≠ some .argument
  readPrecision
    { form := form, widthIndex := index, width := size, misplaced := chosen && size.isSome }
    chosen t

end Directive

/-! ### Arguments -/

/-- How far the arguments of a message are used up. -/
structure Cursor where
  /-- The number of the next argument, from zero. -/
  next : Nat := 0
  /-- Whether an argument was chosen by its place. -/
  reordered : Bool := false
  /-- Whether the choices of the current place holder are good. -/
  good : Bool := true
  /-- The blanks of the last decimal. -/
  blanks : Option Padding := none
  deriving DecidableEq

namespace Cursor

/-- Goes to the argument that an index chooses among `count` arguments. -/
def choose (count : Nat) (c : Cursor) : Option Index → Cursor
  | none => c
  | some (.place n) =>
    if 1 ≤ n ∧ n ≤ count then { c with next := n - 1, reordered := true }
    else { c with reordered := true, good := false }
  | some .malformed => { c with reordered := true, good := false }

/-- Takes the next argument, which is to be an integer of moderate size. -/
def takeInt (args : List Arg) (c : Cursor) : Option Int × Cursor :=
  match args[c.next]? with
  | none => (none, c)
  | some (.int n) =>
    (if n.natAbs ≤ Directive.largest then some n else none, { c with next := c.next + 1 })
  | some (.text _) => (none, { c with next := c.next + 1 })

/-- The number that a size stands for, none if it is an argument that is no number. -/
def takeSize (args : List Arg) (c : Cursor) : Option Size → Option Int × Cursor
  | none => (none, c)
  | some (.given n) => (some n, c)
  | some .argument => c.takeInt args

end Cursor

namespace Directive

/-- A form with the width that was read or taken; a negative width fills on the right. -/
def withWidth (f : Form) : Option Int → Form
  | none => f
  | some n =>
    if n < 0 then { f with width := some n.natAbs, left := true, zeros := false }
    else { f with width := some n.natAbs }

/-- A form with the precision that was read or taken; a negative precision is none. -/
def withPrecision (f : Form) : Option Int → Form
  | none => f
  | some n => if n < 0 then f else { f with precision := some n.natAbs }

/-- A form as a verb takes it: the general verb reads two of the marks in its own way. -/
def forVerb (verb : Glyph) (f : Form) : Form :=
  if verb = .scalar 'v' then
    { f with verbatim := f.marked, marked := false, plus := false }
  else f

/-- The complaint about a width or precision that an argument does not give. -/
def complaint (d : Directive) (f : Form) : Text :=
  if d.precision = some .argument ∧ f.precision.isNone then "%!(BADPREC)"
  else if d.width = some .argument ∧ f.width.isNone then "%!(BADWIDTH)"
  else []

/-- What a place holder becomes, and how far the arguments are then used up. -/
def written (d : Directive) (args : List Arg) (c : Cursor) : Text × Cursor :=
  let count := args.length
  let c := { c with good := !d.misplaced }
  let (width, c) := (c.choose count d.widthIndex).takeSize args d.width
  let (precision, c) := (c.choose count d.precisionIndex).takeSize args d.precision
  let c := c.choose count d.verbIndex
  let form := withPrecision (withWidth d.form width) precision
  match d.verb with
  | none => ("%!(NOVERB)", c)
  | some verb =>
    if verb = .scalar '%' then ("%", c)
    else if !c.good then (("%!" : Text) ++ [verb] ++ "(BADINDEX)", c)
    else
      match args[c.next]? with
      | none => (("%!" : Text) ++ [verb] ++ "(MISSING)", { c with next := c.next + 1 })
      | some arg =>
        let f := forVerb verb form
        let blanks := if showsDecimal f verb arg then f.padding c.blanks else c.blanks
        (d.complaint form ++ shown f blanks verb arg,
          { c with next := c.next + 1, blanks := blanks })

end Directive

end Message

end StackMachine
