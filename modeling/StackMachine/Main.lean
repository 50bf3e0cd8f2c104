import StackMachine.CommandLine.Outcome

/-!
# The program

Reads the file and the standard input that the command line asks for, and prints the
outcome.
-/

namespace StackMachine

namespace CommandLine

/-- The contents of a file, or nothing if it cannot be read. -/
def readFile? (path : String) : IO (Option (List UInt8)) := do
  try
    let bytes ← IO.FS.readBinFile path
    return some bytes.toList
  catch _ => return none

/-- Writes a file and says whether that was possible. -/
def writeFile (path : String) (contents : List UInt8) : IO Bool := do
  try
    IO.FS.writeBinFile path (ByteArray.mk contents.toArray)
    return true
  catch _ => return false

/-- All bytes of a stream, behind the bytes read before. -/
partial def readAll (stream : IO.FS.Stream) (before : ByteArray) : IO ByteArray := do
  let bytes ← stream.read 65536
  if bytes.isEmpty then return before else readAll stream (before ++ bytes)

/-- The standard input, if the command line reads it. -/
def standardInput (args : List Text) : IO (List UInt8) := do
  if readsStandardInput args then
    return (← readAll (← IO.getStdin) ByteArray.empty).toList
  else return []

/-- The files that the command line reads. -/
def inputFiles (args : List Text) : IO Files := do
  match inputPath? args with
  | none => return {}
  | some path =>
    match ← readFile? path.toString with
    | none => return {}
    | some bytes => return { entries := [(path, bytes)] }

/-- Writes the file of an outcome; if that fails, the outcome is another. -/
def settle (outcome : Outcome) : IO Outcome := do
  match outcome.output with
  | none => return outcome
  | some (path, contents) =>
    if ← writeFile path.toString contents then return outcome
    else return outcome.unwritten path

end CommandLine

end StackMachine

open StackMachine CommandLine in
/-- Executes a command line. -/
def main (arguments : List String) : IO UInt32 := do
  let args := arguments.map Text.ofString
  let surroundings : Surroundings :=
    { files := ← inputFiles args, stdin := ← standardInput args }
  let outcome ← settle (execute surroundings args)
  let stdout ← IO.getStdout
  stdout.write (ByteArray.mk outcome.stdout.toArray)
  stdout.flush
  IO.eprint outcome.stderr.toString
  return UInt32.ofNat outcome.exit
