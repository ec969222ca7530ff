import Passwise.Optimizer
import Passwise.Machine

set_option autoImplicit false

namespace Passwise

variable {α : Type} [Scalar α]

inductive LineSearch where
  | fixed
  | bestBall
  deriving DecidableEq, Repr

namespace LineSearch

def name : LineSearch → String
  | fixed => "fixed"
  | bestBall => "best_ball"

def ofName? (name : String) : Option LineSearch := [fixed, bestBall].find? (·.name == name)

end LineSearch

structure Run (α : Type) [Scalar α] where
  task : Task α
  method : Method
  -- None where no number was given, which shows as soon as a change is compared with it.
  tolerance : Option α
  maxIterations : Nat
  parts : Option Int
  shape : Shape
  beta : BetaRule
  lineSearch : LineSearch
  stepsizes : List α
  sizeBound : Int
  conditionBound : α

inductive Reason where
  | converged
  | maxIterations
  | noData
  deriving DecidableEq, Repr

def Reason.name : Reason → String
  | converged => "converged"
  | maxIterations => "max_iters"
  | noData => "no_data"

end Passwise
