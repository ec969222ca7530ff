import Passwise.Machine
import Passwise.Snapshot

set_option autoImplicit false

namespace Passwise

variable {α : Type} [Scalar α]

structure Strategy (α : Type) [Scalar α] where
  origin : Origin α
  totals : Totals α
  step : Example α → Update (PassState α) Unit
  joined : PassState α → PassState α → Except Error (Vec α × Totals α)
  finish : PassState α → Except Error (Snapshot α)

namespace Strategy

def accepts (s : Strategy α) (e : Example α) : Except Error Unit :=
  if e.dimension = s.origin.task.dimension then .ok ()
  else .error (.dimensionMismatch s.origin.task.dimension e.dimension)

def absorb (s : Strategy α) (e : Example α) : Update (PassState α) Unit := do
  s.step e
  modify fun state => { state with rows := state.rows + 1 }

def join (s : Strategy α) (left right : PassState α) : Except Error (PassState α) :=
  if left.task.dimension = right.task.dimension then do
    let (model, totals) ← s.joined left right
    return { left with model := model, totals := totals, rows := left.rows + right.rows }
  else .error (.dimensionMismatch left.task.dimension right.task.dimension)

def result (s : Strategy α) (state : PassState α) : Except Error (Option (Snapshot α)) :=
  if state.rows = 0 then .ok none else return some (← s.finish state)

def start (s : Strategy α) : Except Error (PassState α) := do
  let state ← s.origin.start
  return { state with totals := s.totals }

def machine (s : Strategy α) : Machine α (PassState α) (Snapshot α) :=
  ⟨s.accepts, s.start, s.absorb, s.join, s.result⟩

end Strategy

def sumParts {β : Type} (add : β → β → Except Error β) : Option β → Option β → Except Error β
  -- A part that one of the sides lacks cannot be summed.
  | some left, some right => add left right
  | _, _ => .error .wrongType

end Passwise
