import Passwise.Settings.Task
import Passwise.Settings.Values
import Passwise.Snapshot

set_option autoImplicit false

namespace Passwise

namespace Fields

def optional {β : Type} (given : Fields) (name : String) (read : Literal → Except Error β) :
    Except Error (Option β) :=
  match given.get name with
  | .null => .ok none
  | value => some <$> read value

def number? (given : Fields) (name : String) : Option Numeral :=
  match given.get name with
  | .null => none
  | value => some (.ofLiteral value)

def matrix (value : Literal) : Except Error (Mat Numeral) :=
  match value with
  | .list rows => rows.mapM Numeral.vector
  | _ => .error .wrongType

def named (given : Fields) (name : String) : Fields :=
  match given.get name with
  | .fields entries => entries
  | _ => []

end Fields

def Memory.ofFields (given : Fields) : Except Error (Memory Numeral) := do
  return {
    iteration := (given.lookup "iteration").elim (.whole 0) Numeral.ofLiteral
    direction := ← given.optional "direction" Numeral.vector
    previousGradient := ← given.optional "prev_gradient" Numeral.vector }

def Snapshot.ofFields (given : Fields) : Except Error (Snapshot Numeral) := do
  return {
    task := ← Task.ofFields (given.named "config")
    model := ← Numeral.vector (given.get "model")
    loss := Numeral.ofLiteral (given.get "loss")
    rows := Numeral.ofLiteral (given.get "rows")
    method := given.get "method"
    memory := ← Memory.ofFields given
    gradientNorm := given.number? "grad_norm"
    condition := given.number? "cond"
    inverseDiagonal := ← given.optional "inv_diag" Numeral.vector }

def PassState.ofFields (given : Fields) : Except Error (PassState Numeral) := do
  return {
    task := ← Task.ofFields (given.named "config")
    model := ← Numeral.vector (given.get "model")
    memory := ← Memory.ofFields (given.named "memory")
    totals := {
      loss := (given.number? "loss").getD (.real 0)
      gradient := ← given.optional "gradient" Numeral.vector
      hessian := ← given.optional "hessian" Fields.matrix
      risk := none }
    rows := (← given.optional "rows" Literal.toWhole).getD 0 }

namespace Literal

def toCells (given : Literal) : Except Error (List Numeral) := do
  let (sizes, values) ← given.toTensor
  match sizes with
  | [] | 0 :: _ => throw .outOfRange
  | _ :: inner => if inner.all (· == 1) then return values.map .real else throw .badValue

end Literal

end Passwise
