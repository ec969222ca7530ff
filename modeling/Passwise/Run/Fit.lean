import Passwise.Run.Progress
import Passwise.Source
import Passwise.Trials

set_option autoImplicit false

namespace Passwise

variable {α : Type} [Scalar α]

structure Outcome (α : Type) [Scalar α] where
  reason : Reason
  iterations : Nat
  snapshot : Option (Snapshot α)

namespace Run

def optimizer (run : Run α) (previous : Option (Snapshot α)) : Except Error (Optimizer α) :=
  match run.method with
  | .incremental => return .incremental (← Incremental.make (some run.task) previous)
  | .conjugate => return .conjugate (← Conjugate.make (some run.task) previous run.beta)
  | .newton =>
    return .newton (← Newton.make (some run.task) previous run.sizeBound run.conditionBound)

abbrev Shuffles := Nat → List Nat

variable (run : Run α) (source : Source α) (shuffles : Shuffles)

def parts? : Update (Progress α) (List (List (Example α))) := do
  -- A risk set needs the whole source by descending time.
  if run.task.objective.usesRiskSet then return [source.byDescendingTime]
  else if run.parts = some 1 then return [source.examples]
  else
    let order := shuffles (← get).shuffles
    modify fun p => { p with shuffles := p.shuffles + 1 }
    match run.parts with
    | some count => Update.ofExcept (source.parts order count)
    | none => throw .wrongType

def pass {σ ρ : Type} (m : Machine α σ ρ) : Update (Progress α) (Option ρ) := do
  modify fun p => { p with passes := p.passes + 1 }
  Update.ofExcept (m.run run.shape (← run.parts? source shuffles))

def bestTrial (previous : Option (Snapshot α)) : Update (Progress α) (Option (Snapshot α)) := do
  -- One pass tries all stepsizes, a second one finds their true losses. The winning snapshot
  -- reports the loss of its model over the whole data.
  let trials ← Update.ofExcept (Trials.make run.task run.stepsizes previous)
  match ← run.pass source shuffles trials.machine with
  | none => return none
  | some snapshots =>
    let search ← Update.ofExcept (trials.search snapshots)
    match ← run.pass source shuffles search.machine with
    | none => throw .missingPart
    | some scored =>
      match snapshots[scored.index]? with
      | none => throw .outOfRange
      | some winner => return some { winner with loss := scored.loss }

variable [DenseSolver α]

def iteration (previous : Option (Snapshot α)) : Update (Progress α) (Option (Snapshot α)) := do
  if run.method = .incremental ∧ run.lineSearch = .bestBall then
    run.bestTrial source shuffles previous
  else
    let optimizer ← Update.ofExcept (run.optimizer previous)
    run.pass source shuffles optimizer.machine

omit [DenseSolver α] in
def lineStep (s : Snapshot α) : Update (Progress α) (Snapshot α × α) := do
  match run.lineSearch with
  | .fixed =>
    let moved ← Update.ofExcept (s.advance run.task.stepsize)
    return (moved, run.task.stepsize)
  | .bestBall =>
    let direction ← Update.ofExcept (s.memory.direction.elim (.error .wrongType) .ok)
    let search ← Update.ofExcept
      (Search.alongDirection s.task s.model direction run.stepsizes)
    match (← run.pass source shuffles search.machine).bind (·.stepsize) with
    | none => throw .missingPart
    | some stepsize =>
      let moved ← Update.ofExcept (s.advance stepsize)
      return (moved, stepsize)

omit [DenseSolver α] in
def next (s : Snapshot α) : Update (Progress α) (Snapshot α × Option α) := do
  if run.method = .conjugate then
    let (moved, stepsize) ← run.lineStep source shuffles s
    return (moved, some stepsize)
  else return (s, none)

def iterate (k : Nat) (seed baseline : Option (Snapshot α)) :
    Nat → Update (Progress α) (Outcome α)
  | 0 => return ⟨.maxIterations, k - 1, seed⟩
  | left + 1 => do
    let before := (← get).passes
    match ← run.iteration source shuffles seed with
    | none => return ⟨.noData, k - 1, seed⟩
    | some s =>
      let (resumed, stepsize) ← run.next source shuffles s
      let change ← Progress.record k before s resumed stepsize baseline
      let tolerance ← Update.ofExcept (run.tolerance.elim (.error .wrongType) .ok)
      if change.any fun change => decide (change < tolerance) then
        return ⟨.converged, k, some resumed⟩
      else iterate (k + 1) (some resumed) (some s) left

def fit (previous : Option (Snapshot α)) : Update (Progress α) (Outcome α) :=
  run.iterate source shuffles 1 previous none run.maxIterations

end Run

end Passwise
