import Passwise.Literal

set_option autoImplicit false

namespace Passwise

abbrev Fields := List (String × Literal)

namespace Fields

def overlay (defaults given : Fields) : Except Error Fields :=
  if given.all fun (name, _) => (defaults.lookup name).isSome then
    .ok (defaults.map fun (name, value) => (name, (given.lookup name).getD value))
  else .error .wrongType

def get (fields : Fields) (name : String) : Literal := (fields.lookup name).getD .null

def choice {β : Type} (fields : Fields) (name : String) (ofName? : String → Option β)
    (refused : String → Error) : Except Error β :=
  let given := fields.get name
  match given with
  | .text s =>
    match ofName? s with
    | some x => .ok x
    | none => .error (refused given.render)
  | _ => .error (refused given.render)

end Fields

namespace Literal

def decimal? : Literal → Option Decimal.Value
  | flag b => some (.ofInt (if b then 1 else 0))
  | whole n => some (.ofInt n)
  | real x => some (.ofFloat x)
  | _ => none

def compareNumbers (a b : Literal) : Except Error (Option Ordering) :=
  match a.decimal?, b.decimal? with
  | some x, some y => .ok (x.compare? y)
  | _, _ => .error .wrongType

def lessThan (a b : Literal) : Except Error Bool :=
  match a, b with
  | text s, text t => .ok (s < t)
  | _, _ => return (← a.compareNumbers b) == some .lt

def belowOne (given : Literal) : Except Error Bool := given.lessThan (whole 1)

end Literal

end Passwise
