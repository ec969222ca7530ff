import Passwise.Literal
import Passwise.Task
import Passwise.Totals

set_option autoImplicit false

namespace Passwise

variable {α : Type} [Scalar α]

structure Memory (α : Type) where
  iteration : α
  direction : Option (Vec α)
  previousGradient : Option (Vec α)
  deriving DecidableEq, Repr

namespace Memory

def fresh : Memory α := ⟨Scalar.ofNat 0, none, none⟩

def nextIteration (memory : Memory α) : Except Error α :=
  return (← Scalar.operand memory.iteration) + Scalar.ofNat 1

end Memory

structure PassState (α : Type) [Scalar α] where
  task : Task α
  model : Vec α
  memory : Memory α
  totals : Totals α
  rows : Int

-- A snapshot made by hand may hold anything for its numbers, as long as nothing is computed from
-- them.
structure Snapshot (α : Type) [Scalar α] where
  task : Task α
  model : Vec α
  loss : α
  rows : α
  method : Literal
  memory : Memory α
  gradientNorm : Option α
  condition : Option α
  inverseDiagonal : Option (Vec α)

namespace Snapshot

def lossPerRow (s : Snapshot α) : Except Error α := do
  let loss ← Scalar.operand s.loss
  let rows ← Scalar.operand s.rows
  Scalar.ratio loss rows

def advance (s : Snapshot α) (stepsize : α) : Except Error (Snapshot α) :=
  match s.memory.direction with
  | none => .error .noDirection
  | some direction =>
    do
      if !Scalar.isFinite (← Scalar.operand stepsize) then
        throw (.nonFinite "stepsize" (Scalar.render stepsize))
      let model ← Vec.add? s.model (Vec.scale (← Scalar.factor stepsize) direction)
      return { s with model := model }

end Snapshot

def requireFinite (what : String) (x : α) : Except Error Unit := do
  if Scalar.isFinite (← Scalar.measure x) then return ()
  else throw (.nonFinite what (Scalar.render x))

def requireFiniteVec (what : String) (v : Vec α) : Except Error Unit :=
  if Vec.isFinite v then .ok () else .error (.nonFiniteEntries what)

def requireFiniteMat (what : String) (m : Mat α) : Except Error Unit :=
  if Mat.isFinite m then .ok () else .error (.nonFiniteEntries what)

def relativeChange (new old : Option (Snapshot α)) : Except Error (Option α) :=
  -- There is no change where there is no earlier loss to compare with, or where it is zero.
  match new, old with
  | some new, some old => do
    requireFinite "loss" new.loss
    requireFinite "loss" old.loss
    if old.loss == 0 then return none
    let change := (← Scalar.operand new.loss) - (← Scalar.operand old.loss)
    return some (Scalar.abs change / Scalar.abs old.loss)
  | _, _ => .ok none

structure Origin (α : Type) [Scalar α] where
  task : Task α
  previous : Option (Snapshot α)

namespace Origin

def make (task : Option (Task α)) (previous : Option (Snapshot α)) : Except Error (Origin α) :=
  -- Without a task of its own a pass takes that of the snapshot.
  match task, previous with
  | some task, _ => .ok ⟨task, previous⟩
  | none, some snapshot => .ok ⟨snapshot.task, previous⟩
  | none, none => .error .nothingToStartFrom

def start (origin : Origin α) : Except Error (PassState α) :=
  let task := origin.task
  match origin.previous with
  | none => .ok ⟨task, Vec.zeros task.dimension, .fresh, .zero, 0⟩
  | some s =>
    if task.dimension = s.task.dimension ∧ task.objective = s.task.objective then
      .ok ⟨task, s.model, s.memory, .zero, 0⟩
    else .error (.cannotResume task.objective.name task.dimension s.task.objective.name
      s.task.dimension)

end Origin

end Passwise
