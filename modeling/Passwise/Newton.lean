import Passwise.Linear.Solver
import Passwise.Strategy

set_option autoImplicit false

namespace Passwise

variable {α : Type} [Scalar α]

structure Newton (α : Type) [Scalar α] where
  origin : Origin α
  conditionBound : α
  curved : origin.task.objective.hasCurvature = true
  smooth : origin.task.penalty.smooth = true

namespace Newton

def name : String := "newton"

def ofOrigin (origin : Origin α) (sizeBound : Int) (conditionBound : α) :
    Except Error (Newton α) :=
  let task := origin.task
  if curved : task.objective.hasCurvature then
    if smooth : task.penalty.smooth then
      if sizeBound < task.dimension then .error (.denseTooLarge task.dimension sizeBound)
      else .ok ⟨origin, conditionBound, curved, smooth⟩
    else .error (.roughPenalty task.objective.name)
  else .error (.noHessian task.objective.name)

def make (task : Option (Task α)) (previous : Option (Snapshot α)) (sizeBound : Int)
    (conditionBound : α) : Except Error (Newton α) := do
  ofOrigin (← Origin.make task previous) sizeBound conditionBound

def objective (n : Newton α) : Objective := n.origin.task.objective

def step (n : Newton α) (e : Example α) : Update (PassState α) Unit := do
  let model := (← get).model
  Update.onPart PassState.totals (fun totals state => { state with totals := totals })
    (Totals.addExample n.objective model e)

def joined (left right : PassState α) : Except Error (Vec α × Totals α) := do
  -- A risk set spans the whole stream, so only one side may have one.
  if left.totals.risk.isSome && right.totals.risk.isSome then throw .severalRiskSets
  let gradient ← sumParts Vec.add? left.totals.gradient right.totals.gradient
  let hessian ← sumParts Mat.add? left.totals.hessian right.totals.hessian
  return (left.model, {
    loss := left.totals.loss + right.totals.loss
    gradient := some gradient
    hessian := some hessian
    risk := left.totals.risk.or right.totals.risk })

def closedSums (n : Newton α) (totals : Totals α) : Except Error (Contribution α) :=
  -- The open group counts as if it were closed, which only an objective that uses the risk set can
  -- do.
  match totals.gradient, totals.hessian with
  | some gradient, some hessian =>
    match totals.risk with
    | none => .ok ⟨gradient, hessian, totals.loss⟩
    | some risk =>
      if risk.isEmpty then .ok ⟨gradient, hessian, totals.loss⟩
      else if !n.objective.usesRiskSet then .error .missingPart
      else do
        let pending ← (RiskSet.absorbGroup.run risk).1
        return ⟨← Vec.add? gradient pending.gradient, ← Mat.add? hessian pending.hessian,
          totals.loss + pending.loss⟩
  | _, _ => .error .missingPart

def penalized (n : Newton α) (state : PassState α) : Except Error (Contribution α) := do
  let penalty := n.objective.penalty
  let weight := state.task.regularization
  let sums ← n.closedSums state.totals
  let gradient ← Vec.add? sums.gradient (← penalty.gradient weight state.model)
  let hessian ← Mat.add? sums.hessian (← penalty.hessian weight state.task.dimension)
  return ⟨gradient, hessian, sums.loss + (← penalty.loss weight state.model)⟩

variable [DenseSolver α]

def finish (n : Newton α) (state : PassState α) : Except Error (Snapshot α) := do
  let sums ← n.penalized state
  requireFiniteVec "gradient" sums.gradient
  requireFiniteMat "Hessian" sums.hessian
  requireFinite "loss" sums.loss
  let condition := DenseSolver.condition sums.hessian
  if !Scalar.isFinite condition || decide (n.conditionBound < condition) then
    throw (.illConditioned (Scalar.renderBrief condition) (Scalar.renderBrief n.conditionBound))
  let change ← DenseSolver.solve sums.hessian sums.gradient
  let inverse ← DenseSolver.inverse sums.hessian
  let model ← Vec.combine (· - ·) state.model change
  requireFiniteVec "Newton step" model
  let iteration ← state.memory.nextIteration
  return {
    task := state.task
    model := model
    loss := sums.loss
    rows := Scalar.ofInt state.rows
    method := .text name
    memory := ⟨iteration, none, none⟩
    gradientNorm := some (Vec.norm sums.gradient)
    condition := some condition
    inverseDiagonal := some (Mat.diagonal inverse) }

def strategy (n : Newton α) : Strategy α :=
  ⟨n.origin, Totals.secondOrder n.origin.task.dimension, n.step, joined, n.finish⟩

def machine (n : Newton α) : Machine α (PassState α) (Snapshot α) := n.strategy.machine

end Newton

end Passwise
