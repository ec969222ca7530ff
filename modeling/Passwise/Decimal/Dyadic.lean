
set_option autoImplicit false

namespace Passwise.Decimal

structure Dyadic where
  negative : Bool
  significand : Nat
  exponent : Int
  deriving DecidableEq, Repr

inductive Value where
  | notANumber
  | infinite (negative : Bool)
  | finite (value : Dyadic)
  deriving DecidableEq, Repr

def Value.ofFloat (x : Float) : Value :=
  let bits := x.toBits.toNat
  let negative := bits / Nat.pow 2 63 == 1
  let field : Nat := bits / Nat.pow 2 52 % Nat.pow 2 11
  let fraction : Nat := bits % Nat.pow 2 52
  if field = 2047 then
    if fraction = 0 then .infinite negative else .notANumber
  else if field = 0 then .finite ⟨negative, fraction, -1074⟩
  else .finite ⟨negative, Nat.pow 2 52 + fraction, (field : Int) - 1075⟩

namespace Dyadic

def numerator (x : Dyadic) : Nat := x.significand * Nat.pow 2 x.exponent.toNat

def denominator (x : Dyadic) : Nat := Nat.pow 2 (-x.exponent).toNat

theorem denominator_pos (x : Dyadic) : 0 < x.denominator := Nat.two_pow_pos _

def truncate (x : Dyadic) : Int :=
  let whole := Int.ofNat (x.numerator / x.denominator)
  if x.negative then -whole else whole

def signedNumerator (x : Dyadic) : Int := if x.negative then -(x.numerator : Int) else x.numerator

end Dyadic

namespace Value

def ofInt (n : Int) : Value := .finite ⟨decide (n < 0), n.natAbs, 0⟩

def compare? : Value → Value → Option Ordering
  | .notANumber, _ => none
  | _, .notANumber => none
  | .infinite a, .infinite b => some (compare b a)
  | .infinite negative, .finite _ => some (if negative then .lt else .gt)
  | .finite _, .infinite negative => some (if negative then .gt else .lt)
  | .finite a, .finite b =>
    some (compare (a.signedNumerator * b.denominator) (b.signedNumerator * a.denominator))

end Value

end Passwise.Decimal
