import StackMachine.Text.Glyph

/-!
# Files

The files that a command sees: contents by path. A directory exists if a file lies in
it, and a path may contain steps that stay where they are.

## Main definitions

* `Files`: contents by path.
* `Files.read?`, `Files.canCreate`, `Files.write`: access by path.
-/

namespace StackMachine

/-- Contents by path. -/
structure Files where
  /-- The paths and the contents. -/
  entries : List (Text × List UInt8) := []
  deriving DecidableEq

namespace Files

/-- The steps of a path that lead on. -/
def steps (path : Text) : List Text :=
  (path.split (· = .scalar '/')).filter fun step => !step.isEmpty && step ≠ "."

/-- The contents of a file. -/
def read? (f : Files) (path : Text) : Option (List UInt8) :=
  (f.entries.find? fun entry => steps entry.1 = steps path).map (·.2)

/-- Whether a directory exists, given its steps. -/
def hasDirectory (f : Files) (directory : List Text) : Bool :=
  directory.isEmpty || f.entries.any fun entry =>
    directory.length < (steps entry.1).length && directory.isPrefixOf (steps entry.1)

/-- Whether a file can be written: its directory exists. -/
def canCreate (f : Files) (path : Text) : Bool :=
  !(steps path).isEmpty && f.hasDirectory (steps path).dropLast

/-- The files with new contents at a path. -/
def write (f : Files) (path : Text) (contents : List UInt8) : Files where
  entries :=
    f.entries.filter (fun entry => steps entry.1 ≠ steps path)
      ++ [(Text.join "/" (steps path), contents)]

/-- The paths whose contents differ from those in earlier files, with their contents. -/
def changes (before after : Files) : List (Text × List UInt8) :=
  after.entries.filter fun entry => before.read? entry.1 ≠ some entry.2

end Files

end StackMachine
