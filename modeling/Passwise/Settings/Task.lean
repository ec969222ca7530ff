import Passwise.Scalar.Numeral
import Passwise.Settings.Fields
import Passwise.Task

set_option autoImplicit false

namespace Passwise

namespace Task

def defaults : Fields :=
  [("stepsize", .real 0.01), ("regularization", .real 0.0), ("objective", .text "svm")]

def dimensionOf : Literal → Except Error Int
  -- A dimension has to be a whole number as it stands; a flag is none.
  | .whole n => if 0 < n then .ok n else .error (.dimensionNotPositive n)
  | given => .error (.dimensionNotWhole given.render)

def admissible (name : String) (given : Literal) : Except Error Numeral := do
  let x ← given.toReal
  if Scalar.isAdmissible x then return .ofLiteral given
  else throw (.notFiniteNonnegative name (Scalar.render x))

def ofChecked (fields : Fields) : Except Error (Task Numeral) := do
  let dimension ← dimensionOf (fields.get "dimension")
  let objective ← fields.choice "objective" Objective.ofName? .objectiveNotListed
  let stepsize ← admissible "stepsize" (fields.get "stepsize")
  let regularization ← admissible "regularization" (fields.get "regularization")
  Task.make dimension objective stepsize regularization

def ofFields (given : Fields) : Except Error (Task Numeral) := do
  if (given.lookup "dimension").isNone then throw .wrongType
  ofChecked (← Fields.overlay (("dimension", .null) :: defaults) given)

end Task

end Passwise
