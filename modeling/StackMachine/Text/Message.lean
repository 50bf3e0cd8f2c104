import StackMachine.Text.Message.Directive

/-!
# Messages

User-facing messages are templates with place holders, which are filled with arguments
in order. A place holder without an argument, or with one that its verb cannot show, is
written out as a complaint, and so are arguments that are left over.

## Main definitions

* `Message.render`: a template filled with its arguments.
* `Message.languageTag`: the language that every choice of languages resolves to.
-/

namespace StackMachine

namespace Message

/-- The complaint about the arguments that a template leaves over. There is none if no argument
was used, or if one was chosen by its place. -/
def leftOver (args : List Arg) (c : Cursor) : Text :=
  if !c.reordered ∧ 0 < c.next ∧ c.next < args.length then
    "%!(EXTRA " ++ Text.join ", " ((args.drop c.next).map (described {} none)) ++ ")"
  else []

/-- Fills the rest of a template, of at most the given length. -/
def fill (args : List Arg) : Nat → Cursor → Text → Text
  | fuel + 1, c, g :: rest =>
    if g = .scalar '%' then
      let (directive, rest) := Directive.read rest
      let (t, c) := directive.written args c
      t ++ fill args fuel c rest
    else g :: fill args fuel c rest
  | _, c, _ => leftOver args c

/-- A template filled with its arguments. -/
def render (template : String) (args : List Arg) : Text :=
  fill args (Text.ofString template).length {} template

/-- The language tag that any list of preferred languages resolves to: messages exist in one
language only. -/
def languageTag : String := "und"

end Message

end StackMachine
