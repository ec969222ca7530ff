import Passwise.Linear.Matrix

set_option autoImplicit false

namespace Passwise

class DenseSolver (α : Type) where
  condition : Mat α → α
  solve : Mat α → Vec α → Except Error (Vec α)
  inverse : Mat α → Except Error (Mat α)

namespace Elimination

variable {α : Type} [Scalar α]

def pivotFirst : Mat α → Mat α
  -- The row whose first entry is greatest in size goes first; of equal ones the earliest.
  | [] => []
  | row :: rest =>
    match pivotFirst rest with
    | [] => [row]
    | best :: others =>
      if Scalar.abs (row.headD 0) < Scalar.abs (best.headD 0) then best :: row :: others
      else row :: best :: others

def clearBelow (pivot : Vec α) (rows : Mat α) : Mat α :=
  rows.map fun row =>
    let factor := row.headD 0 / pivot.headD 0
    Vec.sub row.tail (Vec.scale factor pivot.tail)

def reduce : Nat → Mat α → Except Error (Mat α)
  -- Each row holds its coefficients and then the right-hand sides; the answer has one row of
  -- unknowns per column of coefficients.
  | 0, _ => .ok []
  | size + 1, rows =>
    match pivotFirst rows with
    | [] => .error .singularSystem
    | pivot :: others =>
      if pivot.headD 0 == 0 then .error .singularSystem
      else do
        let solved ← reduce size (clearBelow pivot others)
        let coefficients := pivot.tail.take size
        let known := pivot.tail.drop size
        let used := List.zipWith Vec.scale coefficients solved
        let rest := used.foldl Vec.sub known
        return rest.map (· / pivot.headD 0) :: solved

def solve (m : Mat α) (v : Vec α) : Except Error (Vec α) :=
  if m.length = v.length then do
    let rows ← reduce m.length (List.zipWith (fun row x => row ++ [x]) m v)
    return rows.map (·.headD 0)
  else .error .shape

def inverse (m : Mat α) : Except Error (Mat α) :=
  reduce m.length (List.zipWith (· ++ ·) m (Mat.identity m.length))

end Elimination

namespace Rotation

variable {α : Type} [Scalar α]

def large : α := Scalar.power (1 + 1) 64

def extent (v : Vec α) : α :=
  v.foldl (fun a x => if a < Scalar.abs x then Scalar.abs x else a) 0

def isTiny (size : α) : Bool := decide (0 < size) && decide (size < 1 / large)

def columnLength : Nat → Vec α → α
  | 0, v => Vec.norm v
  | fuel + 1, v =>
    let size := extent v
    if large < size then large * columnLength fuel (Vec.scale (1 / large) v)
    else if isTiny size then columnLength fuel (Vec.scale large v) / large
    else Vec.norm v

def overUnit (x : α) : α :=
  if large < Scalar.abs x then Scalar.abs x else Scalar.sqrt (1 + x * x)

def orthogonalize (u v : Vec α) : Vec α × Vec α :=
  let across := Vec.dot u v
  if across == 0 then (u, v)
  else
    let zeta := (Vec.dot v v - Vec.dot u u) / ((1 + 1) * across)
    let size := 1 / (Scalar.abs zeta + overUnit zeta)
    let tangent := if zeta < 0 then -size else size
    let cosine := 1 / Scalar.sqrt (1 + tangent * tangent)
    let sine := cosine * tangent
    (Vec.sub (Vec.scale cosine u) (Vec.scale sine v),
      Vec.add (Vec.scale sine u) (Vec.scale cosine v))

def turnAgainst (u : Vec α) : Mat α → Vec α × Mat α
  | [] => (u, [])
  | v :: rest =>
    let (u, v) := orthogonalize u v
    let (u, rest) := turnAgainst u rest
    (u, v :: rest)

def sweep : Nat → Mat α → Mat α
  | 0, columns => columns
  | _ + 1, [] => []
  | fuel + 1, u :: rest =>
    let (u, rest) := turnAgainst u rest
    u :: sweep fuel rest

def sweeps : Nat → Mat α → Mat α
  | 0, columns => columns
  | fuel + 1, columns => sweeps fuel (sweep columns.length columns)

def levelSteps : Nat := 20

def singularValues : Nat → Mat α → Vec α
  -- The lengths of columns that sweeping has made orthogonal are the singular values. The greatest
  -- entry is brought near one before, so that products of two columns keep their size.
  | 0, m => (sweeps 40 m.transpose).map (columnLength levelSteps)
  | fuel + 1, m =>
    let size := extent m.flatten
    if large < size then Vec.scale large (singularValues fuel (m.map (Vec.scale (1 / large))))
    else if isTiny size then (singularValues fuel (m.map (Vec.scale large))).map (· / large)
    else (sweeps 40 m.transpose).map (columnLength levelSteps)

def condition (m : Mat α) : α :=
  match singularValues levelSteps m with
  | [] => 0
  | value :: rest =>
    let greatest := rest.foldl (fun a b => if a < b then b else a) value
    let least := rest.foldl (fun a b => if b < a then b else a) value
    greatest / least

end Rotation

end Passwise
