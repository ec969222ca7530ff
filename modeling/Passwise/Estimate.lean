import Passwise.Snapshot

set_option autoImplicit false

namespace Passwise

variable {α : Type} [Scalar α]

structure Wald (α : Type) where
  standardErrors : Vec α
  statistics : Vec α
  pValues : Vec α
  condition : Option α
  deriving DecidableEq, Repr

structure Estimate (α : Type) where
  objective : Objective
  coefficients : Vec α
  loss : α
  iterations : α
  wald : Option (Wald α)
  deriving DecidableEq, Repr

namespace Estimate

def standardErrors (inverseDiagonal : Vec α) : Vec α :=
  inverseDiagonal.map fun x => Scalar.sqrt (Scalar.atLeast 0 x)

def twoSided (z : α) : α := Scalar.erfc (Scalar.abs z / Scalar.sqrt (1 + 1))

def ofSnapshot (s : Snapshot α) (iterations : Option α) : Except Error (Estimate α) := do
  let wald ← s.inverseDiagonal.mapM fun diagonal => do
    let errors := standardErrors diagonal
    let statistics ← Vec.combine (· / ·) s.model errors
    return ({
      standardErrors := errors
      statistics := statistics
      pValues := statistics.map twoSided
      condition := s.condition } : Wald α)
  return {
    objective := s.task.objective
    coefficients := s.model
    loss := s.loss
    iterations := iterations.getD s.memory.iteration
    wald := wald }

def predict (e : Estimate α) (features : Vec α) : Except Error (Objective.Prediction α) :=
  e.objective.predict e.coefficients features

def columns (e : Estimate α) : Except Error (List (String × Vec α)) :=
  let known := match e.wald with
    | none => []
    | some w =>
      [("std_err", w.standardErrors), ("z_stats", w.statistics), ("p_values", w.pValues)]
  if known.all fun (_, values) => values.length == e.coefficients.length then
    .ok (("coef", e.coefficients) :: known)
  else .error .badValue

end Estimate

end Passwise
