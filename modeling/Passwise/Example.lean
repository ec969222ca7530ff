import Passwise.Linear.Vector

set_option autoImplicit false

namespace Passwise

inductive Label (α : Type) where
  | plain (value : α)
  | survival (time : α) (event : Bool)
  deriving DecidableEq, Repr

namespace Label

variable {α : Type}

def isSurvival : Label α → Bool
  | plain _ => false
  | survival _ _ => true

def number : Label α → α
  | plain value => value
  | survival time _ => time

def value : Label α → Except Error α
  | plain value => .ok value
  | survival _ _ => .error .wrongType

def sign [Scalar α] : Label α → Except Error α
  | plain value => .ok (if 0 < value then 1 else -1)
  | survival _ _ => .error .wrongType

end Label

structure Example (α : Type) where
  features : Vec α
  label : Label α
  deriving DecidableEq, Repr

def Example.dimension {α : Type} (e : Example α) : Nat := e.features.length

end Passwise
