import Passwise.Machine
import Passwise.Task

set_option autoImplicit false

namespace Passwise

variable {α : Type} [Scalar α]

structure Candidate (α : Type) where
  model : Vec α
  stepsize : Option α
  loss : α
  rows : Int
  deriving DecidableEq, Repr

namespace Candidate

def absorb (o : Objective) (e : Example α) : Update (Candidate α) Unit := do
  let loss ← Update.ofExcept (o.loss (← get).model e)
  modify fun c => { c with loss := c.loss + loss, rows := c.rows + 1 }

def join (a b : Candidate α) : Candidate α :=
  { a with loss := a.loss + b.loss, rows := a.rows + b.rows }

end Candidate

structure Winner (α : Type) where
  index : Nat
  model : Vec α
  stepsize : Option α
  losses : List α
  rows : Int
  loss : α
  deriving DecidableEq, Repr

structure Search (α : Type) [Scalar α] where
  task : Task α
  models : List (Vec α)
  stepsizes : Option (List α)
  nonempty : 0 < models.length
  paired : ∀ steps ∈ stepsizes, steps.length = models.length
  separable : task.objective.usesRiskSet = false
  uniform : ∀ model ∈ models, model.length = task.dimension

namespace Search

def make (task : Task α) (models : List (Vec α)) (stepsizes : Option (List α)) :
    Except Error (Search α) :=
  if nonempty : 0 < models.length then
    if paired : ∀ steps ∈ stepsizes, steps.length = models.length then
      if separable : task.objective.usesRiskSet = false then
        if uniform : ∀ model ∈ models, model.length = task.dimension then
          .ok ⟨task, models, stepsizes, nonempty, paired, separable, uniform⟩
        else
          let misfit := models.find? fun model => model.length != task.dimension
          .error (.dimensionMismatch task.dimension (misfit.elim 0 List.length))
      else .error .searchOverRiskSet
    else .error (.stepsizeCount models.length (stepsizes.elim 0 List.length))
  else .error .noCandidates

def alongDirection (task : Task α) (model direction : Vec α) (stepsizes : List α) :
    Except Error (Search α) := do
  let models ← stepsizes.mapM fun s => do
    Vec.add? model (Vec.scale (← Scalar.factor s) direction)
  make task models (some (stepsizes.map Scalar.plain))

def start (s : Search α) : List (Candidate α) :=
  match s.stepsizes with
  | none => s.models.map fun model => ⟨model, none, 0, 0⟩
  | some stepsizes => (s.models.zip stepsizes).map fun (model, step) => ⟨model, some step, 0, 0⟩

def accepts (s : Search α) (e : Example α) : Except Error Unit :=
  if e.dimension = s.task.dimension then .ok ()
  else .error (.dimensionMismatch s.task.dimension e.dimension)

def absorb (s : Search α) (e : Example α) : Update (List (Candidate α)) Unit :=
  -- Every candidate takes the example; those before one that fails have taken it.
  Update.each fun _ => Candidate.absorb s.task.objective e

def join (left right : List (Candidate α)) : Except Error (List (Candidate α)) :=
  if left.length = right.length then .ok (List.zipWith Candidate.join left right)
  else .error (.candidateCounts left.length right.length)

def leastFinite? (values : List α) : Option (Nat × α) :=
  -- Of equal values the earliest is taken.
  values.zipIdx.foldl (fun best (value, i) =>
    if Scalar.isFinite value then
      match best with
      | none => some (i, value)
      | some (_, least) => if value < least then some (i, value) else best
    else best) none

def penalizedLosses (s : Search α) (state : List (Candidate α)) : Except Error (List α) :=
  state.mapM fun c => return c.loss + (← s.task.penalty.loss s.task.regularization c.model)

def result (s : Search α) (state : List (Candidate α)) : Except Error (Option (Winner α)) :=
  match state with
  | [] => .error .outOfRange
  | first :: _ =>
    if first.rows = 0 then .ok none
    else do
      let losses ← s.penalizedLosses state
      match leastFinite? losses with
      | none => .error .noFiniteLoss
      | some (i, loss) =>
        match state[i]? with
        | none => .error .outOfRange
        | some best => .ok (some ⟨i, best.model, best.stepsize, losses, best.rows, loss⟩)

def machine (s : Search α) : Machine α (List (Candidate α)) (Winner α) :=
  ⟨s.accepts, .ok s.start, s.absorb, join, s.result⟩

end Search

def backtracking (first factor : α) (count : Int) : Except Error (List α) :=
  if first ≤ 0 || !(decide (0 < factor) && decide (factor < 1)) || decide (count < 1) then
    .error .badBacktracking
  else .ok ((List.range count.toNat).map fun k => first * Scalar.power factor k)

end Passwise
