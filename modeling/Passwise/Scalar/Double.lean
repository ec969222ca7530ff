import Passwise.Decimal.Layout
import Passwise.Decimal.Reading
import Passwise.Scalar

set_option autoImplicit false

namespace Passwise.Double

def log1p (x : Float) : Float :=
  let u := 1 + x
  if u == 1 then x
  else if u.isInf then u.log
  else u.log * x / (u - 1)

def softplus (t : Float) : Float := if 20 < t then t else log1p t.exp

def sigmoid (t : Float) : Float := 1 / (1 + (-t).exp)

def errorSeries (square : Float) : Nat → Float → Float → Float
  -- The series `∑ (2 x²)ⁿ / (1 · 3 ⋯ (2 n + 1))`, all of whose terms are positive.
  | 0, _, total => total
  | fuel + 1, term, total =>
    let odd := Float.ofNat (2 * (120 - fuel) + 1)
    let next := term * 2 * square / odd
    errorSeries square fuel next (total + next)

def errorFraction (x : Float) : Nat → Float → Float
  -- The continued fraction `x + (1/2)/(x + 1/(x + (3/2)/(x + ⋯)))` from its depth outwards.
  | 0, tail => x + tail
  | depth + 1, tail => errorFraction x depth (Float.ofNat (depth + 1) / 2 / (x + tail))

def sqrtPi : Float := 1.7724538509055160273

def erfcPositive (x : Float) : Float :=
  if x < 2 then 1 - 2 / sqrtPi * x * (-(x * x)).exp * errorSeries (x * x) 120 1 1
  else (-(x * x)).exp / (sqrtPi * errorFraction x 150 0)

def erfc (x : Float) : Float :=
  if x.isNaN then x
  else if x < 0 then 2 - erfcPositive (-x)
  else if 30 < x then 0
  else erfcPositive x

instance : Scalar Float where
  zero := 0
  one := 1
  decidableLT := inferInstance
  decidableLE := inferInstance
  ofInt := Float.ofInt
  truncate x := match Decimal.Value.ofFloat x with
    | .finite value => value.truncate
    | _ => 0
  isFinite := Float.isFinite
  isNaN := Float.isNaN
  missing := 0 / 0
  sqrt := Float.sqrt
  exp := Float.exp
  log := Float.log
  power x n := Float.pow x (Float.ofNat n)
  softplus := softplus
  sigmoid := sigmoid
  erfc := erfc
  render := Decimal.render
  renderBrief := Decimal.renderBrief

end Passwise.Double
