import Passwise.Decimal.Reading

set_option autoImplicit false

namespace Passwise.Decimal

def isPlainBlank (c : Char) : Bool := c == ' ' || ('\t' ≤ c && c ≤ '\r')

def isPlainDigit (c : Char) : Bool := '0' ≤ c && c ≤ '9'

def plainDigits (cs : List Char) : List Nat := cs.map fun c => c.toNat - '0'.toNat

structure PlainDigits where
  negative : Bool
  digits : List Nat
  rest : List Char

def takePlainDigits (cs : List Char) : PlainDigits :=
  let (negative, rest) := takeSign (cs.dropWhile isPlainBlank)
  ⟨negative, plainDigits (rest.takeWhile isPlainDigit), rest.dropWhile isPlainDigit⟩

def PlainDigits.value (d : PlainDigits) : Int :=
  if d.negative then -(ofDigits d.digits : Int) else ofDigits d.digits

def PlainDigits.ends (d : PlainDigits) : Bool := d.rest.all isPlainBlank

structure PlainNumber where
  negative : Bool
  digits : List Nat
  exponent : Int
  isWhole : Bool

namespace PlainNumber

def precision : Nat := 17

def takeFraction : List Char → Option (List Nat × List Char)
  | '.' :: rest => some (plainDigits (rest.takeWhile isPlainDigit), rest.dropWhile isPlainDigit)
  | _ => none

def takeExponent : List Char → Option (Int × List Char)
  | c :: rest =>
    if c = 'e' || c = 'E' then
      let (negative, rest) := takeSign rest
      let digits := plainDigits ((rest.takeWhile isPlainDigit).take precision)
      let n : Int := ofDigits digits
      if digits.isEmpty then none
      else some (if negative then -n else n, rest.drop digits.length)
    else none
  | [] => none

def ofChars? (cs : List Char) : Option PlainNumber :=
  let front := takePlainDigits cs
  let kept := front.digits.take precision
  let (fraction, rest) := (takeFraction front.rest).getD ([], front.rest)
  let keptFraction := fraction.take (precision - kept.length)
  let (exponent, after) := (takeExponent rest).getD (0, rest)
  let digits := kept ++ keptFraction
  if digits.isEmpty || !after.all isPlainBlank then none
  else some {
    negative := front.negative
    digits := digits
    exponent := exponent + (front.digits.length - kept.length : Nat) - keptFraction.length
    isWhole := (takeFraction front.rest).isNone && (takeExponent rest).isNone }

def powerOfTen (n : Nat) : Float := Float.ofScientific 1 false n

def toFloat? (x : PlainNumber) : Option Float :=
  let size := x.digits.foldl (fun total digit => total * 10 + Float.ofNat digit) 0
  let size :=
    if 308 < x.exponent then 1 / 0
    else if 0 < x.exponent then size * powerOfTen x.exponent.toNat
    else if x.exponent < -616 then 0
    else if x.exponent < -308 then
      size / powerOfTen (-308 - x.exponent).toNat / powerOfTen 308
    else size / powerOfTen (-x.exponent).toNat
  if size.isInf then none else some (if x.negative then -size else size)

end PlainNumber

def plainInfinity? (cs : List Char) : Option Float :=
  let (negative, rest) := takeSign cs
  let word := String.ofList (rest.map Char.toLower)
  if word = "inf" || word = "infinity" then some (if negative then -1 / 0 else 1 / 0) else none

def readPlainReal? (text : String) : Option Float :=
  ((PlainNumber.ofChars? text.toList).bind PlainNumber.toFloat?).orElse fun _ =>
    plainInfinity? text.toList

def readPlainWhole? (text : String) : Option Int :=
  let plain := text.toList.all fun c => isPlainBlank c || ('!' ≤ c && c ≤ '~')
  if plain then readWhole? text else none

end Passwise.Decimal
