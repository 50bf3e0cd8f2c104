import StackMachine.Assembly.Expression.Call
import StackMachine.Assembly.Interpreter

/-!
# An interpreter

An interpreter of a part of the language of expressions, the one that commands are executed
with. Nothing that is said of assembling rests on it.

An expression is evaluated with some names for integers. Names are resolved before anything
is evaluated, so an unknown name is an error even where it would never be reached. A
function may not be called again before its call has ended, so the evaluation of every
expression ends. The statements behind an expression are carried out after it, and all have
to succeed. Of the functions of the language only those on numbers have results, and methods,
comprehensions and dictionaries have none: an expression that uses them is an error.

## Main definitions

* `Expression.Tree.resolves`: whether every name of an expression is known.
* `Expression.Tree.eval`: the value of an expression, if it has one.
* `Expression.interpreter`: the interpreter.
-/

namespace StackMachine

namespace Assembly

namespace Expression

/-! ### Names -/

/-- The constants of the language. -/
def constants : List (Text × Value) :=
  [("None", .none), ("True", .bool true), ("False", .bool false)]

/-- The functions of the language. -/
def builtins : List Text :=
  ["abs", "all", "any", "bool", "bytes", "chr", "dict", "dir", "enumerate", "fail", "float",
   "getattr", "hasattr", "hash", "int", "len", "list", "max", "min", "ord", "print", "range",
   "repr", "reversed", "sorted", "str", "tuple", "type", "zip"]

/-- The values of the names outside every function. -/
abbrev Outer := Text → Option Value

/-- The names in scope at a point of an expression. -/
structure Scope where
  /-- The parameters of the enclosing functions, innermost first. -/
  names : List Text := []
  /-- The values of the parameters. -/
  values : List Value := []
  /-- The values of the names outside every function. -/
  outer : Outer
  /-- The calls that led to this point, innermost first. -/
  path : List Nat := []

/-- The value of a name: a parameter, or a name outside every function. -/
def Scope.find? (s : Scope) (name : Text) : Option Value :=
  match (s.names.zip s.values).find? (·.1 = name) with
  | some (_, value) => some value
  | none => s.outer name

/-- The value of a name that no statement assigns: an equate, a constant or a function of the
language. -/
def predefined (equates : Text → Option Int) : Outer := fun name =>
  match equates name with
  | some n => some (.int n)
  | none =>
    match constants.find? (·.1 = name) with
    | some (_, value) => some value
    | none => if builtins.any (· = name) then some (.builtin name) else none

/-- The values of the names outside every function, of which `assigned` are assigned by statements
and have the values in `given` so far. -/
def outerOf (equates : Text → Option Int) (assigned : List Text) (given : List (Text × Value)) :
    Outer := fun name =>
  if assigned.any (· = name) then (given.find? (·.1 = name)).map (·.2)
  else predefined equates name

/-- Whether a name is known outside every function. -/
def isKnown (equates : Text → Option Int) (assigned : List Text) (name : Text) : Bool :=
  assigned.any (· = name) || (predefined equates name).isSome

mutual

/-- Whether every name of an expression is known. -/
def Tree.resolves (known : Text → Bool) : Tree → Bool
  | .int _ | .float _ | .string _ | .bytes _ | .absent => true
  | .name t => known t
  | .list items => resolvesAll known items
  | .tuple items => resolvesAll known items
  | .unary _ x => x.resolves known
  | .binary _ x y => x.resolves known && y.resolves known
  | .and x y => x.resolves known && y.resolves known
  | .or x y => x.resolves known && y.resolves known
  | .choice c x y => c.resolves known && x.resolves known && y.resolves known
  | .field x _ => x.resolves known
  | .index x i => x.resolves known && i.resolves known
  | .slice x start stop step =>
    x.resolves known && start.resolves known && stop.resolves known && step.resolves known
  | .call _ f arguments _ spread mappings =>
    f.resolves known && resolvesAll known arguments && resolvesAll known spread
      && resolvesAll known mappings
  | .function _ parameters defaults body =>
    resolvesAll known defaults && body.resolves fun t => parameters.all.any (· = t) || known t

/-- Whether every name of some expressions is known. -/
def resolvesAll (known : Text → Bool) : List Tree → Bool
  | [] => true
  | x :: rest => x.resolves known && resolvesAll known rest

end

/-! ### Evaluation -/

mutual

/-- The value of an expression, if it has one; `call` says what calls give. -/
def Tree.eval (scope : Scope) (call : Caller) : Tree → Option Value
  | .int n => some (.int n)
  | .float x => some (.float x)
  | .string s => some (.string s)
  | .bytes s => some (.bytes s)
  | .name t => scope.find? t
  | .absent => some .none
  | .list items => (evalAll scope call [] items).map .list
  | .tuple items => (evalAll scope call [] items).map .tuple
  | .unary op x => (x.eval scope call).bind (unary? op)
  | .binary op x y =>
    (x.eval scope call).bind fun a => (y.eval scope call).bind fun b => binary? op a b
  | .and x y => (x.eval scope call).bind fun a => if a.truth then y.eval scope call else some a
  | .or x y => (x.eval scope call).bind fun a => if a.truth then some a else y.eval scope call
  | .choice c x y =>
    (c.eval scope call).bind fun b => if b.truth then x.eval scope call else y.eval scope call
  | .field _ _ => none
  | .index x i =>
    (x.eval scope call).bind fun a => (i.eval scope call).bind fun k => index? a k
  | .slice x start stop step =>
    (x.eval scope call).bind fun a => (start.eval scope call).bind fun i =>
      (stop.eval scope call).bind fun j => (step.eval scope call).bind fun k => slice? a i j k
  | .call site f arguments names spread mappings =>
    (f.eval scope call).bind fun g =>
      (evalAll scope call [] arguments).bind fun written =>
        (evalAll scope call [] spread).bind fun spread =>
          (evalAll scope call [] mappings).bind fun mappings =>
            (arguments? written names spread mappings).bind fun (values, names) =>
              call site g values names
  | .function id parameters defaults body =>
    (evalAll scope call [] defaults).map fun values =>
      .function id scope.path parameters values body scope.names scope.values

/-- The values of some expressions, if all have one; `seen` holds the values before, last first. -/
def evalAll (scope : Scope) (call : Caller) (seen : List Value) : List Tree → Option (List Value)
  | [] => some seen.reverse
  | x :: rest => (x.eval scope call).bind fun a => evalAll scope call (a :: seen) rest

end

/-- The result of a call, within a bound on the depth of calls; `active` holds the numbers of the
functions whose calls have not ended, and `path` the calls that led to this one. -/
def apply (outer : Outer) : Nat → List Nat → List Nat → Caller
  | 0, _, _ => fun _ _ _ _ => none
  | fuel + 1, active, path => fun site f arguments names =>
    match f with
    | .builtin name =>
      callBuiltin? (apply outer fuel active (site :: path)) name arguments names
    | .function id _ parameters defaults body outerNames outerValues =>
      if id ∈ active then none
      else
        (parameters.values? defaults arguments names).bind fun values =>
          body.eval
            { names := parameters.all ++ outerNames, values := values ++ outerValues,
              outer := outer, path := site :: path }
            (apply outer fuel (id :: active) (site :: path))
    | _ => none

/-- The value of an expression outside every function, within a bound on the depth of calls; the
number tells the statements of a script apart. -/
def Tree.value? (outer : Outer) (fuel : Nat) (line : Nat) (x : Tree) : Option Value :=
  x.eval { outer := outer, path := [line] } (apply outer fuel [] [line])

/-! ### Scripts -/

/-- The name that a statement assigns. -/
def Statement.name? : Statement → Option Text
  | .assignment name _ => some name
  | _ => none

/-- Whether every name in a statement is known. -/
def Statement.resolves (known : Text → Bool) : Statement → Bool
  | .expression x => x.resolves known
  | .assignment _ x => x.resolves known
  | .pass => true

/-- The names that a script assigns, first that of its result. -/
def Script.assigned (s : Script) : List Text :=
  resultName :: s.later.filterMap Statement.name?

/-- Whether no name is assigned twice and every name is known. -/
def Script.resolves (s : Script) (equates : Text → Option Int) : Bool :=
  let known := isKnown equates s.assigned
  distinct s.assigned && s.result.resolves known && s.later.all (Statement.resolves known)

/-- Whether some statements succeed, one after another; `given` holds the values assigned so far
and `line` is the number of the first statement. -/
def succeed (outer : List (Text × Value) → Outer) (fuel : Nat) :
    Nat → List (Text × Value) → List Statement → Bool
  | _, _, [] => true
  | line, given, .pass :: rest => succeed outer fuel (line + 1) given rest
  | line, given, .expression x :: rest =>
    (x.value? (outer given) fuel line).isSome && succeed outer fuel (line + 1) given rest
  | line, given, .assignment name x :: rest =>
    match x.value? (outer given) fuel line with
    | none => false
    | some value => succeed outer fuel (line + 1) ((name, value) :: given) rest

/-- The value of the result of a script, if all of it succeeds. -/
def Script.value? (s : Script) (equates : Text → Option Int) (fuel : Nat) : Option Value :=
  let outer := outerOf equates s.assigned
  (s.result.value? (outer []) fuel 0).bind fun value =>
    if succeed outer fuel 1 [(resultName, value)] s.later then some value else none

/-- The value of a text, if it is an expression that has one. -/
def value? (equates : Text → Option Int) (t : Text) : Option Value :=
  (tokens? t).bind fun tokens => (script? tokens).bind fun script =>
    if script.resolves equates then script.value? equates (2 * tokens.length + 2) else none

/-! ### The interpreter -/

/-- What a value is for the assembler. -/
def Value.global : Value → Global
  | .int n => .int n
  | _ => .other

/-- The expression that a program assigns to the name of results. -/
def assigned? (program : Text) : Option Text :=
  let front : Text := resultName ++ "="
  if program.take front.length = front then some (program.drop front.length).dropLast else none

/-- An interpreter of programs that assign a result. It tells of no other names. -/
@[reducible] def interpreter : Interpreter where
  execute integers program :=
    (assigned? program).bind fun expression =>
      (value? integers expression).map fun value name =>
        if name = resultName then some value.global else none

end Expression

end Assembly

end StackMachine
