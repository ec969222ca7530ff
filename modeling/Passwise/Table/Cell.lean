import Passwise.Literal

set_option autoImplicit false

namespace Passwise

inductive Cell where
  | missing
  | flag (b : Bool)
  | whole (n : Int)
  | real (x : Float)
  | text (s : String)
  | collection (given : Literal)

namespace Cell

def isMissing : Cell → Bool
  | missing => true
  | real x => x.isNaN
  | _ => false

def isFlag : Cell → Bool
  | flag _ => true
  | _ => false

def isWhole : Cell → Bool
  | whole _ => true
  | _ => false

def isText : Cell → Bool
  | text _ => true
  | _ => false

def ofLiteral : Literal → Cell
  | .null => missing
  | .flag b => flag b
  | .whole n => whole n
  | .real x => real x
  | .text s => text s
  | given => collection given

def number? : Cell → Option Float
  | flag b => some (if b then 1 else 0)
  | whole n => some (Float.ofInt n)
  | real x => if x.isNaN then none else some x
  | missing | text _ | collection _ => none

def ofNumber? : Option Float → Cell
  | none => missing
  | some x => real x

def decimal? : Cell → Option Decimal.Value
  | flag b => some (.ofInt (if b then 1 else 0))
  | whole n => some (.ofInt n)
  | real x => if x.isNaN then none else some (.ofFloat x)
  | missing | text _ | collection _ => none

def compareNumbers (a b : Cell) : Option Ordering := do (← a.decimal?).compare? (← b.decimal?)

def same (a b : Cell) : Bool :=
  match a, b with
  | text s, text t => s == t
  | a, b => (a.isMissing && b.isMissing) || a.compareNumbers b == some .eq

def notAfter (a b : Cell) : Bool :=
  -- Numbers by value, after them texts by code points, and missing ones last.
  if b.isMissing then true
  else if a.isMissing then false
  else match a, b with
    | text s, text t => !(t < s)
    | text _, _ => false
    | _, text _ => true
    | a, b => a.compareNumbers b != some .gt

def plain : Cell → Except Error Cell
  | whole n => return real (← Literal.floatOfInt n)
  | real x => .ok (if x.isNaN then missing else real x)
  | collection _ => .error .wrongType
  | cell => .ok cell

end Cell

end Passwise
