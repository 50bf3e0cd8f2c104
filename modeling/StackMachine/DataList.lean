import StackMachine.Text.Blank
import StackMachine.Text.Literal
import StackMachine.Text.Quoted

/-!
# Lists of data values

Initial data is written as literals with commas between them. Blanks around a literal
do not count, and a blank text stands for no data at all.

## Main definitions

* `DataList.Error`: the first item that is no data value.
* `DataList.parse`: the values of a text.
-/

namespace StackMachine

namespace DataList

/-- An item that is no data value. -/
structure Error where
  /-- The values before it. -/
  values : List Int32
  /-- The item. -/
  item : Text
  /-- Why it is refused. -/
  refusal : Literal.Refusal
  deriving DecidableEq

/-- The wording of a refusal. -/
def reason : Literal.Refusal → String
  | .malformed => "invalid syntax"
  | .outOfRange => "value out of range"

/-- The wording of the refusal of a number. -/
def refusalMessage (item : Text) (refusal : Literal.Refusal) : String :=
  "strconv.ParseInt: parsing " ++ Quoted.text item ++ ": " ++ reason refusal

/-- The wording of an error. -/
def Error.message (e : Error) : String :=
  Quoted.text e.item ++ ": " ++ refusalMessage e.item e.refusal

/-- The values of some items behind the values `seen`, which are given last first. -/
def parseItems (seen : List Int32) : List Text → Except Error (List Int32)
  | [] => .ok seen.reverse
  | item :: rest =>
    match Literal.marked 32 (Text.trim item) with
    | .ok value => parseItems (Int32.ofInt value :: seen) rest
    | .error refusal => .error ⟨seen.reverse, Text.trim item, refusal⟩

/-- The values of a text, or nothing if the text is blank. -/
def parse (t : Text) : Except Error (Option (List Int32)) :=
  if t.trim.isEmpty then .ok none
  else (parseItems [] (t.trim.split (· = .scalar ','))).map some

end DataList

end StackMachine
