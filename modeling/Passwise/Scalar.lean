import Passwise.Error

set_option autoImplicit false

namespace Passwise

class Scalar (α : Type) extends Zero α, One α, Add α, Sub α, Mul α, Div α, Neg α, LT α, LE α,
    BEq α where
  decidableLT : DecidableLT α
  decidableLE : DecidableLE α
  ofInt : Int → α
  truncate : α → Int
  isFinite : α → Bool
  isNaN : α → Bool
  missing : α
  plain : α → α := id
  measure : α → Except Error α := .ok
  operand : α → Except Error α := .ok
  -- The value as an operand beside vectors. A whole number has to fit into a word there.
  factor : α → Except Error α := .ok
  row : List α → Except Error (List α) := .ok
  sqrt : α → α
  exp : α → α
  log : α → α
  power : α → Nat → α
  softplus : α → α
  sigmoid : α → α
  erfc : α → α
  render : α → String
  renderBrief : α → String

namespace Scalar

variable {α : Type} [Scalar α]

instance : DecidableLT α := decidableLT
instance : DecidableLE α := decidableLE

def ofNat (n : Nat) : α := ofInt n

def half : α := 1 / (1 + 1)

def abs (x : α) : α := if x < 0 then -x else x

def sign (x : α) : α := if 0 < x then 1 else if x < 0 then -1 else 0

def atLeast (bound x : α) : α := if x < bound then bound else x

-- The positive part. A value that is not a number has none.
def positivePart (x : α) : α := if 0 < x then x else 0

def ratio (x y : α) : Except Error α := if y == 0 then .error .divisionByZero else .ok (x / y)

def isAdmissible (x : α) : Bool := isFinite x && !decide (x < 0)

end Scalar

end Passwise
