import Passwise.Run.Progress
import Passwise.Scalar.Numeral
import Passwise.Table

set_option autoImplicit false

namespace Passwise.History

inductive Logged where
  | tensor (sizes : List Nat) (values : List Float)
  | value (given : Literal)

namespace Logged

def toReal : Logged → Except Error Float
  | tensor _ [x] => .ok x
  | tensor _ _ => .error .badValue
  | value given => given.toReal

def toWhole : Logged → Except Error Int
  | tensor _ [x] => Literal.intOfFloat x
  | tensor _ _ => .error .badValue
  | value given => given.toWhole

def norm (values : List Float) : Float := Float.sqrt ((values.map fun x => x * x).sum)

def toCell : Logged → Cell
  | tensor _ [x] => .real x
  | tensor _ values => .real (norm values)
  | value given => match Cell.ofLiteral given with
    | .collection given => .text given.render
    | cell => cell

def asGiven : Logged → Cell
  | tensor sizes values => Cell.ofLiteral (.ofTensor sizes values)
  | value given => Cell.ofLiteral given

end Logged

structure Row where
  iteration : Logged
  loss : Logged
  gradientNorm : Logged := .value .null
  stepsize : Logged := .value .null
  phase : Logged := .value (.text "main")
  extras : List (String × Logged) := []

def update (record : Record) (cells : Record) : Record :=
  cells.foldl (fun record (name, cell) =>
    if record.any (·.1 == name) then
      record.map fun (other, old) => if other == name then (other, cell) else (other, old)
    else record ++ [(name, cell)]) record

def Row.record (row : Row) : Except Error Record := do
  let iteration ← row.iteration.toWhole
  let loss ← row.loss.toReal
  let stepsize ← match row.stepsize with
    | .value .null => pure Cell.missing
    | given => Cell.real <$> given.toReal
  let fixed := [
      ("iter", .whole iteration), ("phase", row.phase.asGiven), ("loss", .real loss),
      ("grad_norm", row.gradientNorm.toCell), ("alpha", stepsize), ("elapsed_sec", .real 0)
    ]
  return update fixed (row.extras.map fun (name, given) => (name, given.toCell))

def Row.ofArguments (given : List (String × Logged)) : Except Error Row := do
  if (given.lookup "self").isSome then throw .wrongType
  let some iteration := given.lookup "k" | throw .wrongType
  let some loss := given.lookup "loss" | throw .wrongType
  let named := ["k", "loss", "grad_norm", "alpha", "phase"]
  return {
    iteration := iteration
    loss := loss
    gradientNorm := (given.lookup "grad_norm").getD (.value .null)
    stepsize := (given.lookup "alpha").getD (.value .null)
    phase := (given.lookup "phase").getD (.value (.text "main"))
    extras := given.filter fun (name, _) => !named.contains name }

def optional (x : Option Numeral) : Cell := .ofNumber? (x.map Numeral.value)

def ofEntry (entry : Entry Numeral) : Record := [
    ("iter", .whole entry.iteration), ("phase", .text "main"), ("loss", .real entry.loss.value),
    ("grad_norm", optional entry.gradientNorm), ("alpha", optional entry.stepsize),
    ("elapsed_sec", .real 0), ("rows", Cell.ofLiteral entry.rows.toLiteral),
    ("mean_loss", .real entry.lossPerRow.value),
    ("distance", .real (entry.change.elim (1 / 0) Numeral.value)),
    ("passes", .whole entry.passes), ("condition_no", optional entry.condition)
  ]

def table (log : List (Entry Numeral)) : Table := Table.align (log.map ofEntry)

end Passwise.History
