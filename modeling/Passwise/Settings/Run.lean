import Passwise.Run
import Passwise.Settings.Task
import Passwise.Settings.Values

set_option autoImplicit false

namespace Passwise

namespace Run

def defaults : Fields := [
    ("seed", .whole 0), ("objective", .text "svm"), ("method", .text "igd"),
    ("dimension", .whole 2), ("stepsize", .real 0.01), ("regularization", .real 0.0),
    ("tolerance", .real 1e-6), ("max_iters", .whole 50), ("num_partitions", .whole 1),
    ("max_workers", .whole 1), ("merge_shape", .text "tree"),
    ("cg_beta", .text "polak_ribiere"), ("line_search", .text "fixed"),
    ("stepsizes", .list [.real 1.0, .real 0.5, .real 0.25, .real 0.125, .real 0.0625]),
    ("max_dense_dimension", .whole 2048), ("max_condition", .real 1e12),
    ("results_dir", .text "results")
  ]

structure Settings where
  task : Task Numeral
  method : Method
  shape : Shape
  beta : BetaRule
  lineSearch : LineSearch
  stepsizes : List Float
  values : Fields

def Settings.ofChecked (fields : Fields) : Except Error Settings := do
  let method ← fields.choice "method" Method.ofName? .methodNotListed
  let shape ← fields.choice "merge_shape" Shape.ofName? .unknownMergeShape
  let beta ← fields.choice "cg_beta" BetaRule.ofName? .unknownBetaRule
  let lineSearch ← fields.choice "line_search" LineSearch.ofName? .unknownLineSearch
  if ← (fields.get "num_partitions").belowOne then throw .tooFewParts
  if ← (fields.get "max_workers").belowOne then throw .tooFewParts
  if ← (fields.get "max_iters").belowOne then throw .tooFewIterations
  let given ← (fields.get "stepsizes").toItems
  if lineSearch = .bestBall ∧ given.isEmpty then throw .noCandidateStepsize
  let stepsizes ← given.mapM Literal.toReal
  let task ← Task.ofChecked fields
  let values := fields.map fun (name, value) =>
    (name, if name = "stepsizes" then .list (stepsizes.map .real) else value)
  return ⟨task, method, shape, beta, lineSearch, stepsizes, values⟩

def Settings.ofFields (given : Fields) : Except Error Settings := do
  ofChecked (← Fields.overlay defaults given)

def workerCount (parts limit : Literal) : Except Error Literal := do
  let least ← match limit with
    | .null => pure parts
    | _ => do pure (if ← parts.lessThan limit then parts else limit)
  return if ← (Literal.whole 1).lessThan least then least else .whole 1

def seedOf : Literal → Except Error Int
  | .whole n => if Word.fits n then .ok n else .error .badValue
  | _ => .error .shape

def Settings.seed (s : Settings) : Except Error Int := seedOf (s.values.get "seed")

def Settings.seeded (given : Fields) : Except Error Settings := do
  let settings ← ofFields given
  let _ ← settings.seed
  return settings

def partsOf : Literal → Option Int
  | .real x => if x == 1 then some 1 else none
  | given => given.toCount.toOption

def Settings.run (s : Settings) : Except Error (Run Numeral) := do
  let maxIterations ← (s.values.get "max_iters").toCount
  let (sizeBound, conditionBound) ← match s.method with
    | .newton => do
      let sizeBound ← (s.values.get "max_dense_dimension").toWhole
      pure (sizeBound, ← (s.values.get "max_condition").toReal)
    | _ => pure (0, 0)
  return {
    task := s.task
    method := s.method
    tolerance := (Scalar.operand (Numeral.ofLiteral (s.values.get "tolerance"))).toOption
    maxIterations := maxIterations.toNat
    parts := partsOf (s.values.get "num_partitions")
    shape := s.shape
    beta := s.beta
    lineSearch := s.lineSearch
    stepsizes := s.stepsizes.map .real
    sizeBound := sizeBound
    conditionBound := .real conditionBound }

def ofFields (given : Fields) : Except Error (Run Numeral) := do
  (← Settings.ofFields given).run

end Run

end Passwise
