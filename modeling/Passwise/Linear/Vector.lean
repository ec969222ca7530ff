import Passwise.Error
import Passwise.Scalar
import Passwise.Word

set_option autoImplicit false

namespace Passwise

abbrev Vec (α : Type) := List α

namespace Vec

variable {α : Type} [Scalar α]

def zeros (dimension : Nat) : Vec α := List.replicate dimension 0

def length? (length : Int) : Except Error Nat :=
  -- A length from outside is a signed word that is not negative.
  if !Word.fitsSigned length then .error .wrongType
  else if length < 0 then .error .shape
  else .ok length.toNat

def add (u v : Vec α) : Vec α := List.zipWith (· + ·) u v

def sub (u v : Vec α) : Vec α := List.zipWith (· - ·) u v

def neg (v : Vec α) : Vec α := v.map (- ·)

def scale (c : α) (v : Vec α) : Vec α := v.map (c * ·)

def dot (u v : Vec α) : α := (List.zipWith (· * ·) u v).sum

def norm : Vec α → α
  | [x] => Scalar.abs x
  | v => Scalar.sqrt (dot v v)

def sumAbs (v : Vec α) : α := (v.map Scalar.abs).sum

def isFinite (v : Vec α) : Bool := v.all Scalar.isFinite

def dot? (u v : Vec α) : Except Error α :=
  if u.length = v.length then .ok (dot u v) else .error .shape

def combine (op : α → α → α) (u v : Vec α) : Except Error (Vec α) :=
  -- A vector of one coordinate goes with any other.
  if u.length = v.length then .ok (List.zipWith op u v)
  else match u, v with
    | [a], _ => .ok (v.map (op a))
    | _, [b] => .ok (u.map (op · b))
    | _, _ => .error .shape

def add? (u v : Vec α) : Except Error (Vec α) := combine (· + ·) u v

def addTo (total v : Vec α) : Except Error (Vec α) :=
  if total.length = v.length then .ok (add total v)
  else match v with
    | [b] => .ok (total.map (· + b))
    | _ => .error .shape

@[simp] theorem length_zeros (dimension : Nat) : (zeros dimension : Vec α).length = dimension := by
  simp [zeros]

@[simp] theorem length_neg (v : Vec α) : (neg v).length = v.length := by simp [neg]

@[simp] theorem length_scale (c : α) (v : Vec α) : (scale c v).length = v.length := by simp [scale]

theorem length_add {u v : Vec α} (h : u.length = v.length) : (add u v).length = u.length := by
  simp [add, h]

theorem length_sub {u v : Vec α} (h : u.length = v.length) : (sub u v).length = u.length := by
  simp [sub, h]

omit [Scalar α] in
theorem combine_of_length_eq (op : α → α → α) {u v : Vec α} (h : u.length = v.length) :
    combine op u v = .ok (List.zipWith op u v) := by
  simp [combine, h]

theorem dot?_of_length_eq {u v : Vec α} (h : u.length = v.length) : dot? u v = .ok (dot u v) := by
  simp [dot?, h]

theorem addTo_of_length_eq {u v : Vec α} (h : u.length = v.length) :
    addTo u v = .ok (add u v) := by
  simp [addTo, h]

end Vec

end Passwise
