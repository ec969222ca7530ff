import Passwise.Decimal.Shortest

set_option autoImplicit false

namespace Passwise.Decimal

structure Layout where
  leastPositional : Int
  greatestPositional : Int
  markWhole : Bool

def Layout.full : Layout := ⟨-4, 15, true⟩

def Layout.brief : Layout := ⟨-4, 2, false⟩

def Digits.leading (decimal : Digits) : Int :=
  decimal.exponent + digitCount decimal.digits - 1

def zeros (count : Nat) : String := String.ofList (List.replicate count '0')

def Layout.positional (layout : Layout) (decimal : Digits) : String :=
  let digits := toString decimal.digits
  if 0 ≤ decimal.exponent then
    digits ++ zeros decimal.exponent.toNat ++ (if layout.markWhole then ".0" else "")
  else
    let places := (-decimal.exponent).toNat
    let filled := zeros (places + 1 - digits.length) ++ digits
    let whole := filled.length - places
    String.ofList (filled.toList.take whole) ++ "." ++ String.ofList (filled.toList.drop whole)

def Digits.scientific (decimal : Digits) : String :=
  let digits := (toString decimal.digits).toList
  let first := String.ofList (digits.take 1)
  let rest := String.ofList (digits.drop 1)
  let exponent := decimal.leading
  first ++ (if rest.isEmpty then "" else "." ++ rest) ++ "e" ++
    (if exponent < 0 then "-" else "+") ++ twoDigits exponent.natAbs

def Layout.write (layout : Layout) (negative : Bool) (decimal : Digits) : String :=
  let exponent := decimal.leading
  let magnitude :=
    if layout.leastPositional ≤ exponent && exponent ≤ layout.greatestPositional then
      layout.positional decimal
    else decimal.scientific
  (if negative then "-" else "") ++ magnitude

def Value.write (layout : Layout) (digits : Dyadic → Digits) : Value → String
  | .notANumber => "nan"
  | .infinite negative => if negative then "-inf" else "inf"
  | .finite x => layout.write x.negative (digits x)

def render (x : Float) : String := (Value.ofFloat x).write .full Dyadic.shortest

def renderBrief (x : Float) : String := (Value.ofFloat x).write .brief (·.significant 3)

end Passwise.Decimal
