import StackMachine.Text.Quoted

/-!
# Journals

What the components report about their work: entries with a level, a message and named
values.

## Main definitions

* `Journal.Entry`: one report.
* `Journal.Entry.line`: the report as one line of text.
-/

namespace StackMachine

namespace Journal

/-- How serious an entry is. -/
inductive Level where
  | debug
  | warning
  | error
  deriving DecidableEq

/-- The name of a level. -/
def Level.name : Level → String
  | debug => "debug"
  | warning => "warning"
  | error => "error"

/-- One report. -/
structure Entry where
  /-- How serious it is. -/
  level : Level
  /-- What happened. -/
  message : Text
  /-- Named values, in the order of their names. -/
  fields : List (String × String) := []
  deriving DecidableEq

/-- An entry that is shown only when asked for. -/
def debug (message : Text) (fields : List (String × String)) : Entry :=
  ⟨.debug, message, fields⟩

/-- An entry as one line: level, quoted message and named values. -/
def Entry.line (e : Entry) : String :=
  "level=" ++ e.level.name ++ " msg=" ++ Quoted.text e.message
    ++ String.join (e.fields.map fun (name, value) => " " ++ name ++ "=" ++ value) ++ "\n"

end Journal

end StackMachine
