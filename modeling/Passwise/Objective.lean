import Passwise.Example
import Passwise.Penalty

set_option autoImplicit false

namespace Passwise

inductive Objective where
  | svm
  | logistic
  | ridge
  | lasso
  | cox
  deriving DecidableEq, Repr

namespace Objective

def all : List Objective := [svm, logistic, ridge, lasso, cox]

def name : Objective → String
  | svm => "svm"
  | logistic => "logistic"
  | ridge => "ridge"
  | lasso => "lasso"
  | cox => "cox"

def ofName? (name : String) : Option Objective := all.find? (·.name == name)

def code : Objective → Nat
  | svm => 0
  | logistic => 1
  | ridge => 2
  | lasso => 3
  | cox => 4

def penalty : Objective → Penalty
  | lasso => .l1
  | _ => .l2

def isClassifier : Objective → Bool
  | svm | logistic => true
  | _ => false

def hasCurvature : Objective → Bool
  | svm => false
  | _ => true

def usesRiskSet : Objective → Bool
  | cox => true
  | _ => false

def title (o : Objective) : String :=
  let loss := match o with
    | svm => "HingeLoss"
    | logistic => "LogisticLoss"
    | ridge => "SquaredLoss"
    | lasso => "LassoLoss"
    | cox => "CoxPartialLikelihood"
  let penalty := match o.penalty with
    | .l1 => "L1Penalty"
    | .l2 => "L2Penalty"
  s!"{loss}(penalty={penalty})"

variable {α : Type} [Scalar α]

def loss (o : Objective) (model : Vec α) (e : Example α) : Except Error α :=
  match o with
  | svm => do
    let sign ← e.label.sign
    let score ← Vec.dot? model e.features
    return Scalar.positivePart (1 - sign * score)
  | logistic => do
    let sign ← e.label.sign
    let score ← Vec.dot? model e.features
    return Scalar.softplus (-sign * score)
  | ridge | lasso => do
    let score ← Vec.dot? model e.features
    let value ← e.label.value
    let rest := value - score
    return Scalar.half * rest * rest
  | cox => .error .riskSetContribution

def gradient (o : Objective) (model : Vec α) (e : Example α) : Except Error (Vec α) :=
  -- A margin of exactly one counts as kept, so that its subgradient is zero.
  match o with
  | svm => do
    let sign ← e.label.sign
    let score ← Vec.dot? model e.features
    return if 1 ≤ sign * score then Vec.zeros model.length else Vec.scale (-sign) e.features
  | logistic => do
    let sign ← e.label.sign
    let score ← Vec.dot? model e.features
    return Vec.scale (-sign * Scalar.sigmoid (-sign * score)) e.features
  | ridge | lasso => do
    let score ← Vec.dot? model e.features
    let value ← e.label.value
    return Vec.scale (-(value - score)) e.features
  | cox => .error .riskSetContribution

def hessian (o : Objective) (model : Vec α) (e : Example α) : Except Error (Mat α) :=
  match o with
  | svm => .error (.noSuchContribution o.name)
  | logistic => do
    let score ← Vec.dot? model e.features
    let p := Scalar.sigmoid score
    return Mat.scale (p * (1 - p)) (Mat.outer e.features e.features)
  | ridge | lasso => .ok (Mat.outer e.features e.features)
  | cox => .error .riskSetContribution

inductive Prediction (α : Type) where
  | member (yes : Bool)
  | value (x : α)
  deriving DecidableEq, Repr

def predict (o : Objective) (model features : Vec α) : Except Error (Prediction α) := do
  let score ← Vec.dot? model features
  match o with
  | svm => return .member (decide (0 < score))
  | logistic => return .member (decide (Scalar.half < Scalar.sigmoid score))
  | _ => return .value score

end Objective

end Passwise
