import Passwise.Objective
import Passwise.RiskSet

set_option autoImplicit false

namespace Passwise

variable {α : Type} [Scalar α]

structure Totals (α : Type) where
  loss : α
  gradient : Option (Vec α)
  hessian : Option (Mat α)
  risk : Option (RiskSet α)
  deriving DecidableEq, Repr

namespace Totals

def zero : Totals α := ⟨0, none, none, none⟩

def firstOrder (dimension : Nat) : Totals α :=
  { zero with gradient := some (Vec.zeros dimension) }

def secondOrder (dimension : Nat) : Totals α :=
  { firstOrder dimension with hessian := some (Mat.zeros dimension) }

def withGradient (dimension : Int) : Except Error (Totals α) :=
  return firstOrder (← Vec.length? dimension)

def withHessian (dimension : Int) : Except Error (Totals α) :=
  return secondOrder (← Vec.length? dimension)

def addLoss (loss : α) : Update (Totals α) Unit :=
  modify fun totals => { totals with loss := totals.loss + loss }

def addGradient (gradient : Vec α) : Update (Totals α) Unit := do
  match (← get).gradient with
  | none => throw .wrongType
  | some total =>
    let sum ← Update.ofExcept (Vec.addTo total gradient)
    modify fun totals => { totals with gradient := some sum }

def addHessian (hessian : Mat α) : Update (Totals α) Unit := do
  match (← get).hessian with
  | none => throw .wrongType
  | some total =>
    let sum ← Update.ofExcept (Mat.addTo total hessian)
    modify fun totals => { totals with hessian := some sum }

def addOwn (o : Objective) (model : Vec α) (e : Example α) : Update (Totals α) Unit := do
  addGradient (← Update.ofExcept (o.gradient model e))
  addLoss (← Update.ofExcept (o.loss model e))
  if (← get).hessian.isSome then
    addHessian (← Update.ofExcept (o.hessian model e))

def addContribution (c : Contribution α) : Update (Totals α) Unit := do
  addGradient c.gradient
  addHessian c.hessian
  addLoss c.loss

def addToRisk (model : Vec α) (e : Example α) : Update (Totals α) Unit := do
  -- The risk set is made when the first example comes, and a group that it closes is added.
  let closed ← Update.onPart (fun totals => totals.risk.getD (.empty model.length))
    (fun risk totals => { totals with risk := some risk }) (RiskSet.add model e)
  match closed with
  | none => return
  | some contribution => addContribution contribution

def addExample (o : Objective) (model : Vec α) (e : Example α) : Update (Totals α) Unit :=
  if o.usesRiskSet then addToRisk model e else addOwn o model e

end Totals

end Passwise
