import Passwise.Optimizer

set_option autoImplicit false

namespace Passwise

variable {α : Type} [Scalar α]

def wholeCell (x : α) : Except Error Int :=
  if Scalar.isNaN x then .error .badValue
  else if !Scalar.isFinite x then .error .overflow
  else .ok (Scalar.truncate x)

def cellAt (cells : List α) (i : Nat) : Except Error α :=
  match cells[i]? with
  | some x => .ok x
  | none => .error .outOfRange

def scalarCell? (x : α) : Option α := if Scalar.isNaN x then none else some x

def flagCell (present : Bool) : α := if present then 1 else 0

def Objective.ofCode (code : Int) : Except Error Objective :=
  -- Counts from the end when negative.
  let index := if code < 0 then code + Objective.all.length else code
  if index < 0 then .error .outOfRange
  else match Objective.all[index.toNat]? with
    | some o => .ok o
    | none => .error .outOfRange

def Method.ofCell (x : α) : Except Error Method :=
  match Method.all.find? fun m => x == Scalar.ofNat m.code with
  | some m => .ok m
  | none => .error .missingKey

namespace Snapshot

def cellCount (dimension : Nat) : Nat := 4 * dimension + 13

def maker (s : Snapshot α) : Except Error Method :=
  match s.method with
  | .text name => (Method.ofName? name).elim (.error .missingKey) .ok
  | .list _ | .fields _ => .error .wrongType
  | _ => .error .missingKey

def toCells (s : Snapshot α) : Except Error (List α) := do
  let zeros : Vec α := Vec.zeros s.task.dimension
  let method ← s.maker
  let head ← Scalar.row [Scalar.ofNat s.task.dimension, Scalar.ofNat s.task.objective.code,
    s.task.stepsize, s.task.regularization, Scalar.ofNat method.code]
  let found ← Scalar.row [s.memory.iteration, s.loss, s.gradientNorm.getD Scalar.missing,
    s.condition.getD Scalar.missing]
  let rows ← Scalar.row [s.rows]
  return head ++ s.model ++ found ++
    s.memory.direction.getD zeros ++ s.memory.previousGradient.getD zeros ++
    s.inverseDiagonal.getD zeros ++
    [flagCell s.memory.direction.isSome, flagCell s.memory.previousGradient.isSome,
      flagCell s.inverseDiagonal.isSome] ++ rows

def ofCells (cells : List α) : Except Error (Snapshot α) := do
  let dimension ← wholeCell (← cellAt cells 0)
  let d := dimension.toNat
  if dimension ≤ 0 || cells.length != cellCount d then
    throw (.blobLength cells.length dimension)
  let objective ← Objective.ofCode (← wholeCell (← cellAt cells 1))
  let task ← Task.make dimension objective (← cellAt cells 2) (← cellAt cells 3)
  let method ← Method.ofCell (← cellAt cells 4)
  let vector (start : Nat) : Vec α := (cells.drop start).take d
  let optional (start flag : Nat) : Except Error (Option (Vec α)) := do
    let present ← cellAt cells flag
    return if present == 0 then none else some (vector start)
  let iteration ← cellAt cells (5 + d)
  let loss ← cellAt cells (6 + d)
  let gradientNorm ← cellAt cells (7 + d)
  let condition ← cellAt cells (8 + d)
  let direction ← optional (9 + d) (9 + 4 * d)
  let previousGradient ← optional (9 + 2 * d) (10 + 4 * d)
  let inverseDiagonal ← optional (9 + 3 * d) (11 + 4 * d)
  let rows ← wholeCell (← cellAt cells (12 + 4 * d))
  return {
    task := task
    model := vector 5
    loss := loss
    rows := Scalar.ofInt rows
    method := .text method.name
    memory := ⟨Scalar.ofInt (← wholeCell iteration), direction, previousGradient⟩
    gradientNorm := scalarCell? gradientNorm
    condition := scalarCell? condition
    inverseDiagonal := inverseDiagonal }

end Snapshot

end Passwise
