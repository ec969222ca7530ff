import Passwise.Strategy

set_option autoImplicit false

namespace Passwise

variable {α : Type} [Scalar α]

inductive BetaRule where
  | fletcherReeves
  | polakRibiere
  deriving DecidableEq, Repr

namespace BetaRule

def name : BetaRule → String
  | fletcherReeves => "fletcher_reeves"
  | polakRibiere => "polak_ribiere"

def ofName? (name : String) : Option BetaRule :=
  [fletcherReeves, polakRibiere].find? (·.name == name)

def weight (rule : BetaRule) (gradient previous : Vec α) (square : α) : Except Error α :=
  match rule with
  | fletcherReeves => do Scalar.ratio (← Vec.dot? gradient gradient) square
  | polakRibiere => do
    let change ← Vec.combine (· - ·) gradient previous
    return Scalar.positivePart (← Scalar.ratio (← Vec.dot? gradient change) square)

end BetaRule

structure Conjugate (α : Type) [Scalar α] where
  origin : Origin α
  beta : BetaRule
  separable : origin.task.objective.usesRiskSet = false

namespace Conjugate

def name : String := "cg"

def ofOrigin (origin : Origin α) (beta : BetaRule) : Except Error (Conjugate α) :=
  if h : origin.task.objective.usesRiskSet = false then .ok ⟨origin, beta, h⟩
  else .error (.cannotFit name origin.task.objective.name)

def make (task : Option (Task α)) (previous : Option (Snapshot α)) (beta : BetaRule) :
    Except Error (Conjugate α) := do
  ofOrigin (← Origin.make task previous) beta

def objective (c : Conjugate α) : Objective := c.origin.task.objective

def step (c : Conjugate α) (e : Example α) : Update (PassState α) Unit := do
  let model := (← get).model
  Update.onPart PassState.totals (fun totals state => { state with totals := totals })
    (Totals.addExample c.objective model e)

def joined (left right : PassState α) : Except Error (Vec α × Totals α) := do
  let gradient ← sumParts Vec.add? left.totals.gradient right.totals.gradient
  return (left.model, { Totals.zero with
    loss := left.totals.loss + right.totals.loss
    gradient := some gradient })

def direction (rule : BetaRule) (gradient : Vec α) (memory : Memory α) : Except Error (Vec α) :=
  -- The steepest descent is bent toward the earlier direction where that still descends.
  match memory.direction, memory.previousGradient with
  | some earlier, some previous =>
    if memory.iteration == 0 then .ok (Vec.neg gradient)
    else
      let square := Vec.dot previous previous
      if square ≤ 0 then .ok (Vec.neg gradient)
      else do
        let weight ← rule.weight gradient previous square
        let bent ← Vec.add? (Vec.neg gradient) (Vec.scale weight earlier)
        let slope ← Vec.dot? gradient bent
        return if 0 ≤ slope then Vec.neg gradient else bent
  | _, _ => .ok (Vec.neg gradient)

def sums (c : Conjugate α) (state : PassState α) : Except Error (Vec α × α) := do
  -- The penalty counts once for the whole pass.
  let penalty := c.objective.penalty
  let weight := state.task.regularization
  let gradient ← sumParts Vec.add? state.totals.gradient
    (some (← penalty.gradient weight state.model))
  let loss := state.totals.loss + (← penalty.loss weight state.model)
  requireFiniteVec "gradient" gradient
  requireFinite "loss" loss
  return (gradient, loss)

def finish (c : Conjugate α) (state : PassState α) : Except Error (Snapshot α) := do
  let (gradient, loss) ← c.sums state
  let direction ← direction c.beta gradient state.memory
  let iteration ← state.memory.nextIteration
  return {
    task := state.task
    model := state.model
    loss := loss
    rows := Scalar.ofInt state.rows
    method := .text name
    memory := ⟨iteration, some direction, some gradient⟩
    gradientNorm := some (Vec.norm gradient)
    condition := none
    inverseDiagonal := none }

def strategy (c : Conjugate α) : Strategy α :=
  ⟨c.origin, Totals.firstOrder c.origin.task.dimension, c.step, joined, c.finish⟩

def machine (c : Conjugate α) : Machine α (PassState α) (Snapshot α) := c.strategy.machine

end Conjugate

end Passwise
