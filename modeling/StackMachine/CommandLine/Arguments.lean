import StackMachine.CommandLine.Flag

/-!
# Reading the command line

The command is the first argument that is neither a flag nor the value of one. Its flags
may stand before or behind it, written `--name value`, `--name=value`, `-x value`,
`-x=value` or `-xvalue`, and several letters of switches may share a dash. Letters that
start with `test.` are left to a test runner. Two dashes alone end the flags.

## Main definitions

* `CommandLine.UsageError`: what is wrong with a command line.
* `CommandLine.readFlags`: the options and the other arguments of a command.
* `CommandLine.Invocation`, `CommandLine.Invocation.ofArgs`: what a command line asks for.
-/

namespace StackMachine

namespace CommandLine

/-! ### Errors -/

/-- What is wrong with a command line. -/
inductive UsageError where
  /-- There is no such command. -/
  | unknownCommand (name : Text)
  /-- A flag has no name. -/
  | badFlag (argument : Text)
  /-- There is no flag with this name. -/
  | unknownFlag (name : Text)
  /-- There is no flag with the first letter of these. -/
  | unknownLetter (letter : Glyph) (letters : Text)
  /-- A flag that is written by its name lacks its value. -/
  | valueMissing (argument : Text)
  /-- A flag that is written by its letter lacks its value. -/
  | letterValueMissing (letter : Glyph) (letters : Text)
  /-- A value cannot be used for a flag. -/
  | badValue (flag : Flag) (value : Text) (reason : String)
  /-- A command that works on one file has another number of arguments. -/
  | fileCount (count : Nat)
  /-- A command that needs no arguments has one. -/
  | strayArgument (verb : Verb) (argument : Text)
  deriving DecidableEq

/-- A letter between single quotes; a glyph of several bytes shows as the character with the code
of its first byte. -/
def quotedLetter (letter : Glyph) : Text :=
  Quoted.character false (Char.ofNat letter.leadByte.toNat)

/-- The wording of an error. -/
def UsageError.message : UsageError → Text
  | unknownCommand name =>
    Text.ofString ("unknown command " ++ Quoted.text name ++ " for "
      ++ Quoted.text (Text.ofString programName))
  | badFlag argument => "bad flag syntax: " ++ argument
  | unknownFlag name => "unknown flag: --" ++ name
  | unknownLetter letter letters =>
    "unknown shorthand flag: " ++ quotedLetter letter ++ " in -" ++ letters
  | valueMissing argument => "flag needs an argument: " ++ argument
  | letterValueMissing letter letters =>
    "flag needs an argument: " ++ quotedLetter letter ++ " in -" ++ letters
  | badValue flag value reason =>
    Text.ofString ("invalid argument " ++ Quoted.text value ++ " for "
      ++ Quoted.text (Text.ofString flag.display) ++ " flag: " ++ reason)
  | fileCount count =>
    Text.ofString ("accepts 1 arg(s), received " ++ Numeral.decimal count)
  | strayArgument verb argument =>
    Text.ofString ("unknown command " ++ Quoted.text argument ++ " for "
      ++ Quoted.text (Text.ofString (programName ++ " " ++ verb.name)))

/-! ### Flags and their values -/

/-- Whether the argument behind a flag belongs to it. -/
inductive Reach where
  | here
  | next
  deriving DecidableEq

/-- The options with a flag set. -/
def setFlag (flag : Flag) (o : Options) (value : Text) (reach : Reach) :
    Except UsageError (Options × Reach) :=
  match flag.set o value with
  | .ok o => .ok (o, reach)
  | .error reason => .error (.badValue flag value reason)

/-- The options with a flag set that is written by its name; `next` is the argument behind it. -/
def readNamed (flags : List Flag) (o : Options) (argument : Text) (next : Option Text) :
    Except UsageError (Options × Reach) :=
  let body := argument.drop 2
  if body.head? = some (.scalar '-') ∨ body.head? = some (.scalar '=') then
    .error (.badFlag argument)
  else
    let name := Text.upTo (.scalar '=') body
    match Flag.ofName? flags name with
    | none => .error (.unknownFlag name)
    | some flag =>
      match body.drop name.length with
      | _ :: value => setFlag flag o value .here
      | [] =>
        if flag.isSwitch then setFlag flag o "true" .here
        else
          match next with
          | some value => setFlag flag o value .next
          | none => .error (.valueMissing argument)

/-- The start of letters that are meant for a test runner. -/
def testMark : Text := "test."

/-- The options with the flags set that some letters stand for; `next` is the argument behind
them. Letters that are meant for a test runner set nothing. -/
def readLetters (flags : List Flag) (next : Option Text) (o : Options) :
    Text → Except UsageError (Options × Reach)
  | [] => .ok (o, .here)
  | letter :: rest =>
    if testMark.isPrefixOf (letter :: rest) then .ok (o, .here)
    else
      match Flag.ofLetter? flags letter with
      | none => .error (.unknownLetter letter (letter :: rest))
      | some flag =>
        match rest with
        | .scalar '=' :: g :: value => setFlag flag o (g :: value) .here
        | rest =>
          if flag.isSwitch then
            match flag.set o "true" with
            | .ok o => readLetters flags next o rest
            | .error reason => .error (.badValue flag "true" reason)
          else if rest.isEmpty then
            match next with
            | some value => setFlag flag o value .next
            | none => .error (.letterValueMissing letter (letter :: rest))
          else setFlag flag o rest .here

/-- Whether an argument is a flag, or several. -/
def isFlag : Text → Bool
  | .scalar '-' :: _ :: _ => true
  | _ => false

/-- The options with the flags of an argument set. -/
def readFlag (flags : List Flag) (o : Options) (argument : Text) (next : Option Text) :
    Except UsageError (Options × Reach) :=
  if (argument.drop 1).head? = some (.scalar '-') then readNamed flags o argument next
  else readLetters flags next o (argument.drop 1)

/-- The options and the other arguments of a command; `seen` holds the arguments before, last
first. -/
def readFlags (flags : List Flag) (o : Options) (seen : List Text) :
    List Text → Except UsageError (Options × List Text)
  | [] => .ok (o, seen.reverse)
  | argument :: rest =>
    if !isFlag argument then readFlags flags o (argument :: seen) rest
    else if argument = "--" then .ok (o, seen.reverse ++ rest)
    else
      match readFlag flags o argument rest.head?, rest with
      | .error e, _ => .error e
      | .ok (o, .next), _ :: others => readFlags flags o seen others
      | .ok (o, _), others => readFlags flags o seen others

/-! ### The command -/

/-- Whether an argument is a flag that takes the argument behind it. A flag that is not known is
taken for one. -/
def takesNext (flags : List Flag) (argument : Text) : Bool :=
  !argument.contains (.scalar '=') &&
    match argument with
    | .scalar '-' :: .scalar '-' :: name => !(Flag.ofName? flags name).any Flag.isSwitch
    | [.scalar '-', letter] =>
      letter.byteSize = 1 && !(Flag.ofLetter? flags letter).any Flag.isSwitch
    | _ => false

/-- The arguments that are neither flags nor values of flags. -/
def plainArguments (flags : List Flag) : List Text → List Text
  | [] => []
  | argument :: rest =>
    if argument = "--" then []
    else if takesNext flags argument then
      match rest with
      | _ :: second :: others => plainArguments flags (second :: others)
      | _ => []
    else if argument.isEmpty || argument.head? = some (.scalar '-') then plainArguments flags rest
    else argument :: plainArguments flags rest

/-- The arguments without the first that is a given word and no value of a flag. -/
def withoutFirst (flags : List Flag) (word : Text) : List Text → List Text
  | [] => []
  | argument :: rest =>
    if argument = "--" then argument :: rest
    else if takesNext flags argument then
      match rest with
      | [] => [argument]
      | value :: others => argument :: value :: withoutFirst flags word others
    else if argument = word then rest
    else argument :: withoutFirst flags word rest

/-- What a command line asks for. -/
inductive Invocation where
  /-- A command with its options and arguments. -/
  | command (verb : Verb) (options : Options) (arguments : List Text)
  /-- Help about a command, or about the program. -/
  | help (verb : Option Verb)
  /-- Nothing, because of an error. -/
  | refused (error : UsageError)
  deriving DecidableEq

namespace Invocation

/-- Checks the arguments of a command. -/
def checked (verb : Verb) (o : Options) (arguments : List Text) : Invocation :=
  if o.help then .help (some verb)
  else if verb.takesFile then
    if arguments.length = 1 then .command verb o arguments
    else .refused (.fileCount arguments.length)
  else
    match arguments with
    | [] => .command verb o []
    | argument :: _ => .refused (.strayArgument verb argument)

/-- What a command line asks for that has no command. -/
def withoutCommand (args : List Text) : Invocation :=
  match readFlags (Flag.shared ++ [.help]) {} [] args with
  | .error e => .refused e
  | .ok _ => .help none

/-- What a command line asks for. -/
def ofArgs (args : List Text) : Invocation :=
  match plainArguments Flag.shared args with
  | [] => withoutCommand args
  | name :: others =>
    match Verb.ofName? name with
    | none =>
      if name = "help" then .help (others.head?.bind Verb.ofName?)
      else .refused (.unknownCommand name)
    | some verb =>
      match readFlags verb.flags {} [] (withoutFirst Flag.shared name args) with
      | .error e => .refused e
      | .ok (o, arguments) => checked verb o arguments

end Invocation

end CommandLine

end StackMachine
