import Passwise.Search
import Passwise.Snapshot.Cells

set_option autoImplicit false

namespace Passwise

variable {α : Type} [Scalar α]

namespace Candidate

def toCells (c : Candidate α) : List α :=
  let head := [Scalar.ofNat c.model.length, c.stepsize.getD Scalar.missing, c.loss,
    Scalar.ofInt c.rows]
  (head ++ c.model).map Scalar.plain

def ofCells (cells : List α) : Except Error (Candidate α) := do
  let stepsize ← cellAt cells 1
  let loss ← cellAt cells 2
  let rows ← wholeCell (← cellAt cells 3)
  return ⟨cells.drop 4, scalarCell? stepsize, loss, rows⟩

end Candidate

namespace Search

def toCells : Option (List (Candidate α)) → List α
  | none => [0]
  | some state => Scalar.plain (Scalar.ofNat state.length) :: state.flatMap Candidate.toCells

def ofCells (cells : List α) : Except Error (Option (List (Candidate α))) := do
  let count ← wholeCell (← cellAt cells 0)
  if count = 0 then return none
  let dimension ← wholeCell (← cellAt cells 1)
  let stride := 4 + dimension
  if (cells.length : Int) != 1 + count * stride then
    throw (.searchBlobLength cells.length count dimension)
  let width := stride.toNat
  let state ← (List.range count.toNat).mapM fun i =>
    Candidate.ofCells ((cells.drop (1 + i * width)).take width)
  return some state

end Search

end Passwise
