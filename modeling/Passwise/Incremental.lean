import Passwise.Strategy

set_option autoImplicit false

namespace Passwise

variable {α : Type} [Scalar α]

structure Incremental (α : Type) [Scalar α] where
  origin : Origin α
  separable : origin.task.objective.usesRiskSet = false

namespace Incremental

def name : String := "igd"

def ofOrigin (origin : Origin α) : Except Error (Incremental α) :=
  if h : origin.task.objective.usesRiskSet = false then .ok ⟨origin, h⟩
  else .error (.cannotFit name origin.task.objective.name)

def make (task : Option (Task α)) (previous : Option (Snapshot α)) :
    Except Error (Incremental α) := do
  ofOrigin (← Origin.make task previous)

def objective (i : Incremental α) : Objective := i.origin.task.objective

def moved (o : Objective) (task : Task α) (model : Vec α) (e : Example α) :
    Except Error (Vec α) := do
  let own ← o.gradient model e
  let gradient ← Vec.add? own (← o.penalty.smoothGradient task.regularization model)
  let stepsize ← Scalar.factor task.stepsize
  let next ← Vec.combine (· - ·) model (Vec.scale stepsize gradient)
  o.penalty.shrink task.stepsize task.regularization next

def step (i : Incremental α) (e : Example α) : Update (PassState α) Unit := do
  -- The loss is counted at the model after the step.
  let state ← get
  let model ← Update.ofExcept (moved i.objective state.task state.model e)
  modify fun state => { state with model := model }
  let loss ← Update.ofExcept (i.objective.loss model e)
  modify fun state => { state with totals := { state.totals with loss := state.totals.loss + loss } }

def meanModel (left right : PassState α) : Except Error (Vec α) :=
  let rows := left.rows + right.rows
  if rows = 0 then .ok left.model
  else do
    let weight (rows : Int) : Except Error α := Scalar.factor (Scalar.ofInt rows)
    let sum ← Vec.add? (Vec.scale (← weight left.rows) left.model)
      (Vec.scale (← weight right.rows) right.model)
    let total ← weight rows
    return sum.map (· / total)

def joined (left right : PassState α) : Except Error (Vec α × Totals α) := do
  let model ← meanModel left right
  return (model, { Totals.zero with loss := left.totals.loss + right.totals.loss })

def finish (i : Incremental α) (state : PassState α) : Except Error (Snapshot α) := do
  requireFiniteVec "IGD model" state.model
  let penalty ← i.objective.penalty.loss state.task.regularization state.model
  let loss := state.totals.loss + penalty
  requireFinite "IGD loss" loss
  return {
    task := state.task
    model := state.model
    loss := loss
    rows := Scalar.ofInt state.rows
    method := .text name
    memory := state.memory
    gradientNorm := none
    condition := none
    inverseDiagonal := none }

def strategy (i : Incremental α) : Strategy α :=
  ⟨i.origin, .zero, i.step, joined, i.finish⟩

def machine (i : Incremental α) : Machine α (PassState α) (Snapshot α) := i.strategy.machine

end Incremental

end Passwise
