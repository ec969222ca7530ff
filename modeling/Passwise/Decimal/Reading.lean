import Passwise.Decimal.Rounding
import Passwise.Text.Digit

set_option autoImplicit false

namespace Passwise.Decimal

open Passwise.Text (digitValue? trim)

def takeDigits (afterDigit : Bool) : List Char → List Nat × List Char
  | [] => ([], [])
  | c :: rest =>
    match digitValue? c with
    | some digit =>
      let (digits, others) := takeDigits true rest
      (digit :: digits, others)
    | none =>
      if c = '_' && afterDigit && (rest.head?.bind digitValue?).isSome then takeDigits false rest
      else ([], c :: rest)

def ofDigits (digits : List Nat) : Nat := digits.foldl (fun total digit => 10 * total + digit) 0

def takeSign : List Char → Bool × List Char
  | '-' :: rest => (true, rest)
  | '+' :: rest => (false, rest)
  | rest => (false, rest)

def longestWhole : Nat := 4300

def readWhole? (text : String) : Option Int :=
  let (negative, rest) := takeSign (trim text.toList)
  match takeDigits false rest with
  | (digits, []) =>
    if digits.isEmpty || longestWhole < digits.length then none
    else some (if negative then -(ofDigits digits : Int) else ofDigits digits)
  | _ => none

def nearestFloat (digits : Nat) (exponent : Int) : Float :=
  let leading := exponent + digitCount digits
  if digits = 0 || leading < -340 then 0
  else if 320 < leading then 1 / 0
  else Float.ofScientific digits (exponent < 0) exponent.natAbs

def specialValue? (word : String) : Option Float :=
  if word = "inf" || word = "infinity" then some (1 / 0)
  else if word = "nan" then some (0 / 0)
  else none

def readExponent? : List Char → Option Int
  | [] => some 0
  | c :: rest =>
    if c = 'e' || c = 'E' then
      let (negative, rest) := takeSign rest
      match takeDigits false rest with
      | ([], _) => none
      | (digits, []) => some (if negative then -(ofDigits digits : Int) else ofDigits digits)
      | _ => none
    else none

def readReal? (text : String) : Option Float :=
  let (negative, rest) := takeSign (trim text.toList)
  let magnitude :=
    (specialValue? (String.ofList (rest.map Char.toLower))).orElse fun _ =>
      let (whole, rest) := takeDigits false rest
      let (fraction, rest) := match rest with
        | '.' :: rest => takeDigits false rest
        | rest => ([], rest)
      if whole.isEmpty && fraction.isEmpty then none
      else (readExponent? rest).map fun exponent =>
        nearestFloat (ofDigits (whole ++ fraction)) (exponent - fraction.length)
  magnitude.map fun x => if negative then -x else x

end Passwise.Decimal
