import Passwise.Decimal.Dyadic
import Passwise.Decimal.Rounding

set_option autoImplicit false

namespace Passwise.Decimal

structure Digits where
  digits : Nat
  exponent : Int
  deriving DecidableEq, Repr

-- The numbers that round to a double, in quarters of its last place. Below a power of two the
-- spacing halves.
structure Interval where
  low : Nat
  high : Nat
  closed : Bool
  unit : Int

def Dyadic.interval (x : Dyadic) : Interval :=
  let atPower := x.significand = Nat.pow 2 52 && -1074 < x.exponent
  ⟨4 * x.significand - (if atPower then 1 else 2), 4 * x.significand + 2,
    x.significand % 2 = 0, x.exponent - 2⟩

def Interval.holds (i : Interval) (decimal : Digits) : Bool :=
  let value := decimal.digits * Nat.pow 10 decimal.exponent.toNat * Nat.pow 2 (-i.unit).toNat
  let scale := Nat.pow 10 (-decimal.exponent).toNat * Nat.pow 2 i.unit.toNat
  let low := i.low * scale
  let high := i.high * scale
  if i.closed then low ≤ value && value ≤ high else low < value && value < high

def Dyadic.onGrid (x : Dyadic) (power : Int) : Option Digits :=
  -- Only the two neighbours of `x` on the grid can read back as `x`; the nearer is taken, a tie
  -- going to the even one.
  let (n, d) := scaleTen x.numerator x.denominator (-power)
  let below : Digits := ⟨n / d, power⟩
  let above : Digits := ⟨n / d + 1, power⟩
  let nearest : Digits := ⟨roundHalfEven n d, power⟩
  if x.interval.holds nearest then some nearest
  else if x.interval.holds below then some below
  else if x.interval.holds above then some above
  else none

def Dyadic.shortestFrom (x : Dyadic) (power : Int) : Nat → Digits
  | 0 => ⟨roundToPower x.numerator x.denominator power, power⟩
  | fuel + 1 =>
    match x.onGrid power with
    | some decimal => decimal
    | none => x.shortestFrom (power - 1) fuel

def Digits.strip (decimal : Digits) : Digits :=
  go decimal (digitCount decimal.digits)
where
  go (decimal : Digits) : Nat → Digits
    | 0 => decimal
    | fuel + 1 =>
      if decimal.digits % 10 = 0 && decimal.digits != 0 then
        go ⟨decimal.digits / 10, decimal.exponent + 1⟩ fuel
      else decimal

def Dyadic.shortest (x : Dyadic) : Digits :=
  if x.significand = 0 then ⟨0, 0⟩
  else (x.shortestFrom (leadingExponent x.numerator x.denominator) 17).strip

def Dyadic.significant (x : Dyadic) (count : Nat) : Digits :=
  if x.significand = 0 then ⟨0, 0⟩
  else
    let power := leadingExponent x.numerator x.denominator - (count : Int) + 1
    Digits.strip ⟨roundToPower x.numerator x.denominator power, power⟩

end Passwise.Decimal
