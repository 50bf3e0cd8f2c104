import StackMachine.Assembly.Expression.Operator

/-!
# Calls

How the arguments of a call reach the parameters of a function, and what the functions that
come with the language give.

## Main definitions

* `Expression.Caller`: what calls give.
* `Expression.Parameters.values?`: the values of parameters in a call.
* `Expression.callBuiltin?`: the result of a function of the language.
-/

namespace StackMachine

namespace Assembly

namespace Expression

/-- What calls give: of a value with some arguments, the last of them by the given names. The
number tells the calls of one function apart. -/
abbrev Caller := Nat → Value → List Value → List Text → Option Value

/-! ### Arguments -/

/-- The arguments of a call with the names of the last ones: those that are written out, the last
of them by the given names, the items of what is spread, and the values of mappings by their names.
No name may be given twice. -/
def arguments? (written : List Value) (names : List Text) (spread mappings : List Value) :
    Option (List Value × List Text) :=
  let count := written.length - names.length
  let entries? : Value → Option (List Text × List Value)
    | .mapping names values => some (names, values)
    | _ => none
  (spread.mapM Value.items?).bind fun items =>
    (mappings.mapM entries?).bind fun entries =>
      let names := names ++ (entries.map (·.1)).flatten
      let values :=
        written.take count ++ items.flatten ++ written.drop count ++ (entries.map (·.2)).flatten
      if distinct names then some (values, names) else none

/-- Arguments by position and by name by the parameters that they go to, where `left` says whether
arguments by position may be left over. There are none if an argument goes to no parameter or two go
to the same. -/
def bound? (parameters named : List Text) (left : Bool) (positional : List Value)
    (given : List (Text × Value)) : Option (List (Text × Option Value)) :=
  let count := positional.length
  let lookup (name : Text) : Option Value := (given.find? (·.1 = name)).map (·.2)
  let free := parameters.drop count ++ named
  if parameters.length < count && !left then none
  else if !given.all fun (name, _) => free.any (· = name) then none
  else
    some (((parameters.take count).zip (positional.map some))
      ++ free.map fun name => (name, lookup name))

/-- The values of the parameters of a function in a call, in the order of `Parameters.all`: what
has no argument has its default, the arguments by position that are left over are a tuple, and those
by name a mapping. -/
def Parameters.values? (p : Parameters) (defaults arguments : List Value) (names : List Text) :
    Option (List Value) :=
  let count := arguments.length - names.length
  let positional := arguments.take count
  let isOwn (name : Text) : Bool := (p.names ++ p.named).any (· = name)
  let (own, other) :=
    (names.zip (arguments.drop count)).partition fun (name, _) => isOwn name || p.surplus.isNone
  let default? (name : Text) : Option Value :=
    ((p.optional.zip defaults).find? (·.1 = name)).map (·.2)
  let rest : List Value :=
    if p.rest.isSome then [.tuple (positional.drop p.names.length)] else []
  let surplus : List Value :=
    if p.surplus.isSome then [.mapping (other.map (·.1)) (other.map (·.2))] else []
  (bound? p.names p.named p.rest.isSome positional own).bind fun given =>
    (given.mapM fun (name, value) => Option.or value (default? name)).map (· ++ rest ++ surplus)

/-! ### Functions of the language -/

/-- The digits of a byte string behind a base mark, if it has the mark of the base asked for or
no base was asked for, and the base that it is to be read in. -/
def basedDigits? (base : Nat) (t : Text) : Option (Nat × Text) :=
  let plain : Option (Nat × Text) :=
    if base ≠ 0 then some (base, t)
    else if t.head? = some (.scalar '0') && 1 < t.length then
      if t.all (· = .scalar '0') then some (10, t) else none
    else some (10, t)
  match t with
  | .scalar '0' :: .scalar m :: d :: rest =>
    let mark :=
      if m = 'o' ∨ m = 'O' then 8
      else if m = 'x' ∨ m = 'X' then 16
      else if m = 'b' ∨ m = 'B' then 2
      else 0
    if mark = 0 then plain
    else if base = 0 ∨ base = mark then some (mark, d :: rest)
    else some (base, t)
  | _ => plain

/-- The integer that a byte string stands for in a base; zero lets the string choose. -/
def parseInt? (base : Nat) (bytes : List UInt8) : Option Int :=
  let (negative, body) := Literal.takeSign (Text.ofBytes bytes)
  (basedDigits? base body).bind fun (base, digits) =>
    (Literal.natural? base digits).map (Literal.withSign negative)

/-- The integer of a value, by the base given for a string. -/
def toInt? (x : Value) (base : Option Value) : Option Value :=
  match x, base with
  | .string s, none => (parseInt? 10 s.toList).map .int
  | .string s, some (.int b) =>
    if b = 0 ∨ 2 ≤ b ∧ b ≤ 36 then (parseInt? b.toNat s.toList).map .int else none
  | .bool b, none => some (.int (if b then 1 else 0))
  | x, none => (integral? x).map .int
  | _, _ => none

/-- The keys of some values: what a function gives for each, or the values themselves. `seen` holds
the keys before, last first, and `k` is their number. -/
def keys? (call : Caller) (key : Option Value) :
    Nat → List Value → List Value → Option (List Value)
  | _, seen, [] => some seen.reverse
  | k, seen, x :: rest =>
    (match key with
      | none => some x
      | some f => call k f [x] []).bind fun value => keys? call key (k + 1) (value :: seen) rest

/-- The first of some values whose key lies in direction `order` of all keys before it, from the
values with their keys. -/
def extreme? (order : Ordering) : Value × Value → List (Value × Value) → Option Value
  | best, [] => some best.1
  | best, x :: rest =>
    (x.2.compare? best.2).bind fun o =>
      if o == order then extreme? order x rest else extreme? order best rest

/-- The greatest or least of the arguments, or of the items of a single one. -/
def extremum? (order : Ordering) (call : Caller) (arguments : List Value) (names : List Text) :
    Option Value :=
  let count := arguments.length - names.length
  let items? :=
    match arguments.take count with
    | [x] => x.items?
    | xs => some xs
  if !names.all (· = "key") then none
  else
    items?.bind fun items => (keys? call (arguments[count]?) 0 [] items).bind fun keys =>
      match items.zip keys with
      | [] => none
      | x :: rest => extreme? order x rest

/-- The result of a function of the language. -/
def callBuiltin? (call : Caller) (name : Text) (arguments : List Value) (names : List Text) :
    Option Value :=
  if name = "int" then
    let count := arguments.length - names.length
    match bound? ["x", "base"] [] false (arguments.take count)
      (names.zip (arguments.drop count)) with
    | some [(_, some x), (_, base)] => toInt? x base
    | _ => none
  else if name = "abs" then
    match names, arguments with
    | [], [.int n] => some (.int n.natAbs)
    | [], [.float x] => some (.float x.abs)
    | _, _ => none
  else if name = "len" then
    match names, arguments with
    | [], [.string s] => some (.int s.size)
    | [], [.bytes s] => some (.int s.size)
    | [], [x] => x.items?.map fun items => .int items.length
    | _, _ => none
  else if name = "max" then extremum? .gt call arguments names
  else if name = "min" then extremum? .lt call arguments names
  else none

end Expression

end Assembly

end StackMachine
