import Passwise.Linear.Matrix

set_option autoImplicit false

namespace Passwise

variable {α : Type} [Scalar α]

def softThreshold (threshold : α) (v : Vec α) : Except Error (Vec α) := do
  let threshold ← Scalar.factor threshold
  return v.map fun x => Scalar.sign x * Scalar.atLeast 0 (Scalar.abs x - threshold)

inductive Penalty where
  | l1
  | l2
  deriving DecidableEq, Repr

namespace Penalty

def smooth : Penalty → Bool
  | l1 => false
  | l2 => true

def loss (p : Penalty) (weight : α) (model : Vec α) : Except Error α := do
  let weight ← Scalar.operand weight
  match p with
  | l1 => return weight * Vec.sumAbs model
  | l2 => return Scalar.half * weight * Vec.dot model model

def gradient (p : Penalty) (weight : α) (model : Vec α) : Except Error (Vec α) := do
  -- Of the rough penalty a subgradient is taken, zero at zero.
  let weight ← Scalar.factor weight
  match p with
  | l1 => return model.map fun x => weight * Scalar.sign x
  | l2 => return Vec.scale weight model

def hessian (p : Penalty) (weight : α) (dimension : Nat) : Except Error (Mat α) :=
  match p with
  | l1 => .error .roughPenaltyHessian
  | l2 => return Mat.scale (← Scalar.factor weight) (Mat.identity dimension)

def smoothGradient (p : Penalty) (weight : α) (model : Vec α) : Except Error (Vec α) :=
  match p with
  | l1 => .ok (Vec.zeros model.length)
  | l2 => return Vec.scale (← Scalar.factor weight) model

def shrink (p : Penalty) (stepsize weight : α) (model : Vec α) : Except Error (Vec α) :=
  match p with
  | l1 => do
    let threshold := (← Scalar.operand stepsize) * (← Scalar.operand weight)
    softThreshold threshold model
  | l2 => .ok model

end Penalty

end Passwise
