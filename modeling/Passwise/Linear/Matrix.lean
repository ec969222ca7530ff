import Passwise.Linear.Vector

set_option autoImplicit false

namespace Passwise

abbrev Mat (α : Type) := List (Vec α)

namespace Mat

variable {α : Type} [Scalar α]

def zeros (dimension : Nat) : Mat α := List.replicate dimension (Vec.zeros dimension)

def scale (c : α) (m : Mat α) : Mat α := m.map (Vec.scale c)

def sub (a b : Mat α) : Mat α := List.zipWith Vec.sub a b

def outer (u v : Vec α) : Mat α := u.map fun a => Vec.scale a v

def identity (dimension : Nat) : Mat α :=
  (List.range dimension).map fun i =>
    (List.range dimension).map fun j => if i = j then 1 else 0

def mulVec (m : Mat α) (v : Vec α) : Vec α := m.map (Vec.dot · v)

def diagonal (m : Mat α) : Vec α := m.zipIdx.filterMap fun (row, i) => row[i]?

def column (m : Mat α) (j : Nat) : Vec α := m.filterMap (·[j]?)

def transpose (m : Mat α) : Mat α :=
  match m with
  | [] => []
  | row :: _ => (List.range row.length).map (column m)

def isFinite (m : Mat α) : Bool := m.all Vec.isFinite

def combine (op : α → α → α) (a b : Mat α) : Except Error (Mat α) :=
  if a.length = b.length then (a.zip b).mapM fun (u, v) => Vec.combine op u v
  else match a, b with
    | [u], _ => b.mapM (Vec.combine op u)
    | _, [v] => a.mapM (Vec.combine op · v)
    | _, _ => .error .shape

def add? (a b : Mat α) : Except Error (Mat α) := combine (· + ·) a b

def addTo (total m : Mat α) : Except Error (Mat α) :=
  if total.length = m.length then (total.zip m).mapM fun (u, v) => Vec.addTo u v
  else match m with
    | [v] => total.mapM (Vec.addTo · v)
    | _ => .error .shape

end Mat

end Passwise
