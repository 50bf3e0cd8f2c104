import StackMachine.Assembly.Expression.Token

/-!
# Expression trees

The grammar of compile-time expressions, from loosest to tightest: conditional
expressions and functions, `or`, `and`, `not`, comparisons (which do not chain), `|`,
`^`, `&`, shifts, sums, products, signs, and primaries with their calls and indices. On
the lines behind an expression there may be statements.

## Main definitions

* `Expression.Tree`: an expression.
* `Expression.Script`: an expression with the statements behind it.
* `Expression.script?`: the script of a list of tokens.
-/

namespace StackMachine

namespace Assembly

namespace Expression

/-- The operators with one operand. -/
inductive UnaryOp where
  | plus | minus | complement | not
  deriving DecidableEq

/-- The operators that evaluate both their operands. -/
inductive BinaryOp where
  | add | sub | mul | div | floorDiv | mod
  | bitAnd | bitOr | bitXor | shiftLeft | shiftRight
  | less | greater | lessEqual | greaterEqual | equal | notEqual
  | member | notMember
  deriving DecidableEq

/-- The parameters of a function. -/
structure Parameters where
  /-- The parameters that take arguments by position or by name, in order. -/
  names : List Text := []
  /-- Whether a star has ended the parameters that take arguments by position. -/
  starred : Bool := false
  /-- The parameter that takes all other arguments by position. -/
  rest : Option Text := none
  /-- The parameters that take arguments by name only. -/
  named : List Text := []
  /-- The parameter that takes all other arguments by name. -/
  surplus : Option Text := none
  /-- The parameters that have a default. -/
  optional : List Text := []
  deriving DecidableEq

/-- All parameters, those for all other arguments last. -/
def Parameters.all (p : Parameters) : List Text :=
  p.names ++ p.named ++ p.rest.toList ++ p.surplus.toList

/-- An expression. -/
inductive Tree where
  | int (n : Int)
  | float (x : Float)
  | string (bytes : ByteArray)
  /-- A string that is no text. -/
  | bytes (bytes : ByteArray)
  | name (t : Text)
  /-- A bound of a slice that is left out. -/
  | absent
  | list (items : List Tree)
  | tuple (items : List Tree)
  | unary (op : UnaryOp) (x : Tree)
  | binary (op : BinaryOp) (x y : Tree)
  | and (x y : Tree)
  | or (x y : Tree)
  | choice (condition whenTrue whenFalse : Tree)
  | field (x : Tree) (name : Text)
  | index (x i : Tree)
  | slice (x start stop step : Tree)
  /-- A call, told apart by a number. The last arguments go by the given names; what is spread
  stands for its items, and a mapping for its values, which go by its names. -/
  | call (site : Nat) (f : Tree) (arguments : List Tree) (names : List Text)
      (spread mappings : List Tree)
  /-- A function, told apart by a number, with the defaults of its optional parameters. -/
  | function (id : Nat) (parameters : Parameters) (defaults : List Tree) (body : Tree)

/-- A parser reads a part of a token list. -/
abbrev Parser (α : Type) := List Token → Option (α × List Token)

/-! ### Operators -/

/-- What an operator between two operands makes of them. -/
abbrev Joiner := Mark → Option (Tree → Tree → Tree)

/-- Reads operators and operands behind a first operand and groups them from the left. -/
def chain (operand : Parser Tree) (joiner : Joiner) : Nat → Tree → Parser Tree
  | fuel + 1, x, .mark m :: rest =>
    match joiner m with
    | none => some (x, .mark m :: rest)
    | some make => (operand rest).bind fun (y, rest) => chain operand joiner fuel (make x y) rest
  | _, x, rest => some (x, rest)

/-- Operands with operators of one level between them, within a bound on their number. -/
def level (bound : Nat) (operand : Parser Tree) (joiner : Joiner) : Parser Tree := fun tokens =>
  (operand tokens).bind fun (x, rest) => chain operand joiner bound x rest

/-- The levels of arithmetic, loosest first. -/
def arithmetic : List (List (Mark × BinaryOp)) :=
  [[(.bar, .bitOr)],
   [(.caret, .bitXor)],
   [(.ampersand, .bitAnd)],
   [(.shiftLeft, .shiftLeft), (.shiftRight, .shiftRight)],
   [(.plus, .add), (.minus, .sub)],
   [(.star, .mul), (.slash, .div), (.slashSlash, .floorDiv), (.percent, .mod)]]

/-- The joiner of a list of operators. -/
def joinerOf (operators : List (Mark × BinaryOp)) : Joiner := fun m =>
  (operators.lookup m).map Tree.binary

/-- Arithmetic over the given levels, with operands read by `operand`. -/
def arithmeticOver (bound : Nat) (operand : Parser Tree) :
    List (List (Mark × BinaryOp)) → Parser Tree
  | [] => operand
  | operators :: tighter => level bound (arithmeticOver bound operand tighter) (joinerOf operators)

/-- The comparison operators. -/
def comparisons : List (Mark × BinaryOp) :=
  [(.less, .less), (.greater, .greater), (.lessEqual, .lessEqual),
   (.greaterEqual, .greaterEqual), (.equal, .equal), (.notEqual, .notEqual),
   (.inWord, .member), (.notInWord, .notMember)]

/-- Two operands with a comparison between them, or one operand; comparisons do not chain. -/
def comparison (operand : Parser Tree) : Parser Tree := fun tokens =>
  (operand tokens).bind fun (x, rest) =>
    match rest with
    | .mark m :: behind =>
      match joinerOf comparisons m with
      | none => some (x, rest)
      | some make =>
        (operand behind).bind fun (y, rest) =>
          match rest with
          | .mark m :: _ =>
            if (joinerOf comparisons m).isSome then none else some (make x y, rest)
          | _ => some (make x y, rest)
    | _ => some (x, rest)

/-- A comparison behind any number of negations. -/
def negation (operand : Parser Tree) : Parser Tree
  | .mark .notWord :: rest =>
    (negation operand rest).map fun (x, rest) => (.unary .not x, rest)
  | tokens => operand tokens

/-- The joiner of conjunctions. -/
def andJoiner : Joiner := fun m => if m = .andWord then some .and else none

/-- The joiner of disjunctions. -/
def orJoiner : Joiner := fun m => if m = .orWord then some .or else none

/-- Everything looser than a primary and tighter than a conditional expression, within a bound on
the number of operators of one level. -/
def disjunction (bound : Nat) (primary : Parser Tree) : Parser Tree :=
  let compared := negation (comparison (arithmeticOver bound primary arithmetic))
  level bound (level bound compared andJoiner) orJoiner

/-! ### Lists, arguments and parameters -/

/-- Whether a token list starts with a mark. -/
def closes (close : Mark) : List Token → Bool
  | .mark m :: _ => m = close
  | _ => false

/-- Expressions with commas between them, up to a closing bracket; a comma may stand before it.
`seen` holds the expressions before, last first. -/
def items (expression : Parser Tree) (close : Mark) : Nat → List Tree → Parser (List Tree)
  | 0, _, _ => none
  | fuel + 1, seen, tokens =>
    if closes close tokens then some (seen.reverse, tokens.tail)
    else
      (expression tokens).bind fun (x, rest) =>
        if closes close rest then some ((x :: seen).reverse, rest.tail)
        else if closes .comma rest then items expression close fuel (x :: seen) rest.tail
        else none

/-- Expressions with commas between them, up to tokens that satisfy `ends`; no comma stands before
those. `seen` holds the expressions before, last first. -/
def openItems (expression : Parser Tree) (ends : List Token → Bool) :
    Nat → List Tree → Parser (List Tree)
  | 0, _, _ => none
  | fuel + 1, seen, tokens =>
    (expression tokens).bind fun (x, rest) =>
      if ends rest then some ((x :: seen).reverse, rest)
      else if closes .comma rest then openItems expression ends fuel (x :: seen) rest.tail
      else none

/-- An expression up to tokens that satisfy `ends`; several with commas between them are a tuple
without parentheses. -/
def openTree (bound : Nat) (expression : Parser Tree) (ends : List Token → Bool) : Parser Tree :=
  fun tokens =>
    (openItems expression ends bound [] tokens).map fun
      | ([x], rest) => (x, rest)
      | (xs, rest) => (.tuple xs, rest)

/-- A bound of a slice, which may be left out, if the tokens go on with a colon. -/
def sliceBound (expression : Parser Tree) : Parser Tree
  | .mark .colon :: rest =>
    if closes .colon rest || closes .closeBracket rest then some (.absent, rest)
    else expression rest
  | tokens => some (.absent, tokens)

/-- Whether the first bound of a slice, or an index, ends. -/
def endsIndex (tokens : List Token) : Bool :=
  closes .colon tokens || closes .closeBracket tokens

/-- An item or a slice of a tree, from behind the opening bracket. -/
def subscript (bound : Nat) (expression : Parser Tree) (x : Tree) : Parser Tree := fun tokens =>
  let first? :=
    if closes .colon tokens then some (.absent, tokens)
    else openTree bound expression endsIndex tokens
  first?.bind fun (start, rest) =>
    if closes .closeBracket rest then some (.index x start, rest.tail)
    else
      (sliceBound expression rest).bind fun (stop, rest) =>
        (sliceBound expression rest).bind fun (step, rest) =>
          if closes .closeBracket rest then some (.slice x start stop step, rest.tail) else none

/-- The arguments of a call, the last of each kind first. -/
structure Arguments where
  /-- The arguments given by position. -/
  positional : List Tree := []
  /-- The arguments given by name. -/
  named : List (Text × Tree) := []
  /-- The argument that stands for its items, if there is one. -/
  spread : List Tree := []
  /-- The argument that stands for its values by their names, if there is one. -/
  mappings : List Tree := []

/-- Whether no name occurs twice. -/
def distinct : List Text → Bool
  | [] => true
  | name :: rest => !rest.contains name && distinct rest

/-- The largest number of arguments of one kind in a call. -/
def argumentLimit : Nat := 255

/-- Whether a call can have some arguments: no name is given twice, and there are not too many. -/
def Arguments.wellFormed (a : Arguments) : Bool :=
  a.positional.length ≤ argumentLimit && a.named.length ≤ argumentLimit
    && distinct (a.named.map (·.1))

/-- The call of a function with some arguments. -/
def Arguments.call (a : Arguments) (site : Nat) (f : Tree) : Tree :=
  .call site f (a.positional.reverse ++ a.named.reverse.map (·.2)) (a.named.reverse.map (·.1))
    a.spread a.mappings

/-- The arguments of a call up to its closing parenthesis: first those by position, then those by
name, then the spread one, then the mapping. -/
def arguments (expression : Parser Tree) : Nat → Arguments → Parser Arguments
  | 0, _, _ => none
  | fuel + 1, seen, tokens =>
    let more (seen : Arguments) (rest : List Token) : Option (Arguments × List Token) :=
      match rest with
      | .mark .closeParen :: rest => some (seen, rest)
      | .mark .comma :: rest => arguments expression fuel seen rest
      | _ => none
    let last := seen.spread.isEmpty && seen.mappings.isEmpty
    match tokens with
    | .mark .closeParen :: rest => some (seen, rest)
    | .mark .starStar :: rest =>
      (expression rest).bind fun (x, rest) =>
        if seen.mappings.isEmpty then more { seen with mappings := [x] } rest else none
    | .mark .star :: rest =>
      (expression rest).bind fun (x, rest) =>
        if last then more { seen with spread := [x] } rest else none
    | .name key :: .mark .assign :: rest =>
      (expression rest).bind fun (x, rest) =>
        if last then more { seen with named := (key, x) :: seen.named } rest else none
    | _ =>
      (expression tokens).bind fun (x, rest) =>
        if last && seen.named.isEmpty then
          more { seen with positional := x :: seen.positional } rest
        else none

/-- Adds a parameter. Behind a star it takes its argument by name only; before it, a parameter
without a default does not follow one with a default. None follows the one that takes all other
arguments by name. -/
def Parameters.add? (p : Parameters) (name : Text) (optional : Bool) : Option Parameters :=
  let p' := if optional then { p with optional := p.optional ++ [name] } else p
  if p.surplus.isSome then none
  else if p.starred then some { p' with named := p.named ++ [name] }
  else if !optional && !p.optional.isEmpty then none
  else some { p' with names := p.names ++ [name] }

/-- Whether a function can have some parameters: no two are the same, and a star that takes no
arguments itself stands before a parameter. -/
def Parameters.wellFormed (p : Parameters) : Bool :=
  distinct p.all && !(p.starred && p.rest.isNone && p.named.isEmpty)

/-- The parameters of a function up to the colon, from where one of them stands, with their
defaults. -/
def parametersFrom (expression : Parser Tree) :
    Nat → Parameters → List Tree → Parser (Parameters × List Tree)
  | 0, _, _, _ => none
  | fuel + 1, seen, defaults, tokens =>
    let more (seen : Parameters) (defaults : List Tree) (rest : List Token) :
        Option ((Parameters × List Tree) × List Token) :=
      match rest with
      | .mark .colon :: rest => some ((seen, defaults), rest)
      | .mark .comma :: rest => parametersFrom expression fuel seen defaults rest
      | _ => none
    match tokens with
    | .mark .starStar :: .name key :: rest =>
      if seen.surplus.isSome then none
      else more { seen with surplus := some key } defaults rest
    | .mark .star :: rest =>
      if seen.starred || seen.surplus.isSome then none
      else
        match rest with
        | .name key :: rest => more { seen with starred := true, rest := some key } defaults rest
        | _ => more { seen with starred := true } defaults rest
    | .name key :: .mark .assign :: rest =>
      (expression rest).bind fun (x, rest) =>
        (seen.add? key true).bind fun seen => more seen (defaults ++ [x]) rest
    | .name key :: rest => (seen.add? key false).bind fun seen => more seen defaults rest
    | _ => none

/-- The parameters of a function up to the colon, with their defaults. -/
def parameters (bound : Nat) (expression : Parser Tree) : Parser (Parameters × List Tree)
  | .mark .colon :: rest => some (({}, []), rest)
  | tokens => parametersFrom expression bound {} [] tokens

/-! ### Expressions -/

/-- Calls, indices and fields behind a primary; `bound` is a bound on the number of items in one of
them. -/
def suffixes (bound : Nat) (expression : Parser Tree) : Nat → Tree → Parser Tree
  | fuel + 1, x, .mark .dot :: rest =>
    match rest with
    | .name key :: rest => suffixes bound expression fuel (.field x key) rest
    | _ => none
  | fuel + 1, x, .mark .openBracket :: rest =>
    (subscript bound expression x rest).bind fun (x, rest) =>
      suffixes bound expression fuel x rest
  | fuel + 1, x, .openParen site :: rest =>
    (arguments expression bound {} rest).bind fun (given, rest) =>
      if given.wellFormed then suffixes bound expression fuel (given.call site x) rest else none
  | _, x, rest => some (x, rest)

/-- What is read at a point of the grammar. -/
inductive Goal where
  /-- A whole expression. -/
  | expression
  /-- A primary with its suffixes, behind any signs. -/
  | primary
  deriving DecidableEq

/-- A bracketed expression, a tuple or nothing, from behind the opening parenthesis. -/
def parenthesised (bound : Nat) (expression : Parser Tree) (tokens : List Token) :
    Option (Tree × List Token) :=
  match tokens with
  | .mark .closeParen :: rest => some (.tuple [], rest)
  | _ =>
    (expression tokens).bind fun (x, rest) =>
      match rest with
      | .mark .closeParen :: rest => some (x, rest)
      | .mark .comma :: rest =>
        (items expression .closeParen bound [x] rest).map fun (xs, rest) => (.tuple xs, rest)
      | _ => none

/-- A primary without its suffixes. -/
def atom (bound : Nat) (expression primary : Parser Tree) : Parser Tree
  | .int n :: rest => some (.int n, rest)
  | .float x :: rest => some (.float x, rest)
  | .string s :: rest => some (.string s.toByteArray, rest)
  | .bytes s :: rest => some (.bytes s.toByteArray, rest)
  | .name t :: rest => some (.name t, rest)
  | .mark .plus :: rest => (primary rest).map fun (x, rest) => (.unary .plus x, rest)
  | .mark .minus :: rest => (primary rest).map fun (x, rest) => (.unary .minus x, rest)
  | .mark .tilde :: rest => (primary rest).map fun (x, rest) => (.unary .complement x, rest)
  | .mark .openBracket :: rest =>
    (items expression .closeBracket bound [] rest).map fun (xs, rest) => (.list xs, rest)
  | .openParen _ :: rest => parenthesised bound expression rest
  | _ => none

/-- A function with a number, from behind its keyword. -/
def functionTree (bound number : Nat) (expression : Parser Tree) (tokens : List Token) :
    Option (Tree × List Token) :=
  (parameters bound expression tokens).bind fun ((given, defaults), rest) =>
    if given.wellFormed then
      (expression rest).map fun (body, rest) => (.function number given defaults body, rest)
    else none

/-- Reads an expression or a primary, within a bound on the depth of the tree and on the number of
items at a point of it. Twice the number of tokens, and two more, is enough: what is nested in a
tree starts at a later token, or is a primary at the same token. -/
def parse : Nat → Goal → Parser Tree
  | 0, _, _ => none
  | fuel + 1, .primary, tokens =>
    (atom fuel (parse fuel .expression) (parse fuel .primary) tokens).bind fun (x, rest) =>
      suffixes fuel (parse fuel .expression) fuel x rest
  | fuel + 1, .expression, tokens =>
    match tokens with
    | .lambdaWord number :: rest => functionTree fuel number (parse fuel .expression) rest
    | _ =>
      (disjunction fuel (parse fuel .primary) tokens).bind fun (x, rest) =>
        match rest with
        | .mark .ifWord :: rest =>
          (disjunction fuel (parse fuel .primary) rest).bind fun (condition, rest) =>
            match rest with
            | .mark .elseWord :: rest =>
              (parse fuel .expression rest).map fun (y, rest) => (.choice condition x y, rest)
            | _ => none
        | _ => some (x, rest)

/-! ### Scripts -/

/-- A statement behind an expression. -/
inductive Statement where
  /-- An expression, whose value is dropped. -/
  | expression (x : Tree)
  /-- A name for the value of an expression. -/
  | assignment (name : Text) (x : Tree)
  /-- A statement that does nothing. -/
  | pass

/-- An expression with the statements behind it. -/
structure Script where
  /-- The expression. -/
  result : Tree
  /-- The statements. -/
  later : List Statement := []

/-- Whether no tokens are left on a line. -/
def endsLine : List Token → Bool
  | [] => true
  | .newline :: _ => true
  | _ => false

/-- An expression or a tuple without parentheses up to the end of a line. -/
def lineTree (bound : Nat) (expression : Parser Tree) : Parser Tree :=
  openTree bound expression endsLine

/-- The statements of some lines; `bound` is a bound on the number of items on one of them. -/
def statements? (bound : Nat) (expression : Parser Tree) :
    Nat → List Token → Option (List Statement)
  | _, [] => some []
  | 0, _ => none
  | fuel + 1, .newline :: rest => statements? bound expression fuel rest
  | fuel + 1, .mark .passWord :: rest =>
    if endsLine rest then (statements? bound expression fuel rest).map (.pass :: ·) else none
  | fuel + 1, .name key :: .mark .assign :: rest =>
    (lineTree bound expression rest).bind fun (x, rest) =>
      (statements? bound expression fuel rest).map (.assignment key x :: ·)
  | fuel + 1, tokens =>
    (lineTree bound expression tokens).bind fun (x, rest) =>
      (statements? bound expression fuel rest).map (.expression x :: ·)

/-- The script of a token list. -/
def script? (tokens : List Token) : Option Script :=
  let bound := 2 * tokens.length + 2
  let expression := parse bound .expression
  (lineTree bound expression tokens).bind fun (x, rest) =>
    (statements? bound expression bound rest).map fun later => { result := x, later := later }

end Expression

end Assembly

end StackMachine
