import StackMachine.Stack
import StackMachine.Text.Numeral

/-!
# Machine sizes

The sizes that a machine is built with. Sizes that are not given fall back to the
defaults, and an assembler sees the data size and the stack limit as equates.

## Main definitions

* `Config`, `Config.default`: the sizes and their defaults.
* `Config.normalize`: the sizes that a machine uses for the ones asked for.
* `Config.defines`: the equates that describe a machine.
-/

namespace StackMachine

/-- The sizes of a machine. -/
structure Config where
  /-- The number of data cells. -/
  dataSize : Int := 0
  /-- The greatest depth of the operand stack. -/
  stackLimit : Int := 0
  /-- The number of data cells shown in a snapshot; a negative number shows all. -/
  dataWindow : Int := 0
  /-- The number of history entries kept; zero keeps none. -/
  traceDepth : Int := 0
  deriving DecidableEq

namespace Config

/-- The sizes of a machine about which nothing was said, without history. -/
def default : Config where
  dataSize := 1024
  stackLimit := Stack.defaultLimit
  dataWindow := 50
  traceDepth := 0

/-- The sizes that a machine uses: missing sizes take their defaults. -/
def normalize (c : Config) : Config where
  dataSize := if c.dataSize ≤ 0 then default.dataSize else c.dataSize
  stackLimit := if c.stackLimit ≤ 0 then default.stackLimit else c.stackLimit
  dataWindow := if c.dataWindow = 0 then default.dataWindow else c.dataWindow
  traceDepth := if c.traceDepth < 0 then 0 else c.traceDepth

/-- The equates that describe a machine of these sizes. -/
def defines (c : Config) : List (String × String) :=
  [("DATA_SIZE", Numeral.decimal c.normalize.dataSize),
   ("STACK_LIMIT", Numeral.decimal c.normalize.stackLimit)]

end Config

end StackMachine
