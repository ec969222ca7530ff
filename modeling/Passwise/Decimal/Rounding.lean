
set_option autoImplicit false

namespace Passwise.Decimal

def roundHalfEven (num den : Nat) : Nat :=
  let quotient := num / den
  let twice := 2 * (num % den)
  if twice < den then quotient
  else if den < twice then quotient + 1
  else if quotient % 2 = 0 then quotient else quotient + 1

def scaleTen (num den : Nat) (power : Int) : Nat × Nat :=
  (num * Nat.pow 10 power.toNat, den * Nat.pow 10 (-power).toNat)

def digitCount (n : Nat) : Nat := (Nat.toDigits 10 n).length

def leadingExponent (num den : Nat) : Int :=
  let guess : Int := (digitCount num : Int) - digitCount den
  let (n, d) := scaleTen num den (-guess)
  if d ≤ n then guess else guess - 1

def roundToPower (num den : Nat) (power : Int) : Nat :=
  let (n, d) := scaleTen num den (-power)
  roundHalfEven n d

def twoDigits (n : Nat) : String := if n < 10 then s!"0{n}" else toString n

end Passwise.Decimal
