import Passwise.Decimal.Plain
import Passwise.Table.Column

set_option autoImplicit false

namespace Passwise.Csv

def missingWords : List String := [
    "", "#N/A", "#N/A N/A", "#NA", "-1.#IND", "-1.#QNAN", "-NaN", "-nan", "1.#IND", "1.#QNAN",
    "<NA>", "N/A", "NA", "NULL", "NaN", "None", "n/a", "nan", "null"
  ]

inductive Attempt (β : Type) where
  | value (x : β)
  | noNumber
  | tooLarge
  deriving DecidableEq, Repr

def attempt {β : Type} (read : String → Attempt β) :
    List (Option String) → Attempt (List (Option β))
  | [] => .value []
  | field :: rest =>
    let proceed (x : Option β) : Attempt (List (Option β)) :=
      match attempt read rest with
      | .value values => .value (x :: values)
      | .noNumber => .noNumber
      | .tooLarge => .tooLarge
    match field with
    | none => proceed none
    | some field =>
      match read field with
      | .value x => proceed (some x)
      | .noNumber => .noNumber
      | .tooLarge => .tooLarge

def readSigned (field : String) : Attempt Int :=
  let front := Decimal.takePlainDigits field.toList
  if front.digits.isEmpty then .noNumber
  else if !Word.fitsSigned front.value then .tooLarge
  else if front.ends then .value front.value
  else .noNumber

def readUnsigned (field : String) : Attempt (Option Nat) :=
  let front := Decimal.takePlainDigits field.toList
  if front.negative then .value none
  else if front.digits.isEmpty then .noNumber
  else if !Word.fitsUnsigned front.value then .tooLarge
  else if front.ends then .value (some front.value.toNat)
  else .noNumber

def readFlag? (field : String) : Option Bool :=
  let word := String.ofList (field.toList.map Char.toLower)
  if word = "true" then some true
  else if word = "false" then some false
  else none

def asGiven (fields : List String) : List Cell := fields.map .text

def readAll? (read : String → Option Cell) (given : List (Option String)) :
    Option (List Cell) :=
  given.mapM fun field => field.elim (some .missing) read

def readOthers (given : List (Option String)) : List Cell :=
  ((readAll? (fun s => (Decimal.readPlainReal? s).map .real) given).or
    (readAll? (fun s => (readFlag? s).map .flag) given)).getD
      (given.map fun field => field.elim .missing .text)

def readLong (fields : List String) (given : List (Option String)) : List Cell :=
  (readAll? (fun s => (Decimal.readPlainWhole? s).map .whole) given).getD (asGiven fields)

def readLarge (fields : List String) (given : List (Option String)) : List Cell :=
  match attempt readUnsigned given with
  | .noNumber => readOthers given
  | .tooLarge => readLong fields given
  | .value numbers =>
    let negative := numbers.contains (some none)
    let large := numbers.any fun n => (n.bind id).any (!Word.fitsSigned ·)
    if large && (negative || numbers.contains none) then asGiven fields
    else if negative then readLong fields given
    else numbers.map fun n => (n.bind id).elim .missing fun n => .whole n

def readColumn (fields : List String) : List Cell :=
  let given := fields.map fun field => if missingWords.contains field then none else some field
  match attempt readSigned given with
  | .noNumber => readOthers given
  | .tooLarge => readLarge fields given
  | .value numbers =>
    if !numbers.contains none then numbers.map fun n => n.elim .missing .whole
    else numbers.map fun n =>
      match n with
      | none => .missing
      | some n => if n = -(Word.half : Int) then .missing else .real (Float.ofInt n)

end Passwise.Csv
