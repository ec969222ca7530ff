import Passwise.Optimizer
import Passwise.Scalar.Numeral
import Passwise.Settings.Fields

set_option autoImplicit false

namespace Passwise

namespace Optimizer

def conjugateDefaults : Fields := [("beta", .text BetaRule.polakRibiere.name)]

def newtonDefaults : Fields :=
  [("max_dense_dimension", .whole 2048), ("max_condition", .real 1e12)]

def ofFields (method : Literal) (task : Option (Task Numeral))
    (previous : Option (Snapshot Numeral)) (options : Fields) :
    Except Error (Optimizer Numeral) := do
  match ← Fields.choice [("method", method)] "method" Method.ofName? .unknownMethod with
  | .incremental => return .incremental (← Incremental.make task previous)
  | .conjugate =>
    let options ← Fields.overlay conjugateDefaults options
    let beta ← options.choice "beta" BetaRule.ofName? .unknownBetaRule
    return .conjugate (← Conjugate.make task previous beta)
  | .newton =>
    let options ← Fields.overlay newtonDefaults options
    let sizeBound ← (options.get "max_dense_dimension").toWhole
    let conditionBound ← (options.get "max_condition").toReal
    return .newton (← Newton.make task previous sizeBound (.real conditionBound))

end Optimizer

end Passwise
