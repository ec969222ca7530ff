import Passwise.Decimal.Layout
import Passwise.Decimal.Reading
import Passwise.Error
import Passwise.Text.Quoted
import Passwise.Word

set_option autoImplicit false

namespace Passwise

inductive Literal where
  | null
  | flag (b : Bool)
  | whole (n : Int)
  | real (x : Float)
  | text (s : String)
  | list (items : List Literal)
  | fields (entries : List (String × Literal))

namespace Literal

mutual

def render : Literal → String
  | null => "None"
  | flag b => if b then "True" else "False"
  | whole n => toString n
  | real x => Decimal.render x
  | text s => Text.quote s
  | list items => "[" ++ ", ".intercalate (renderItems items) ++ "]"
  | fields entries => "\x7b" ++ ", ".intercalate (renderEntries entries) ++ "\x7d"

def renderItems : List Literal → List String
  | [] => []
  | item :: rest => item.render :: renderItems rest

def renderEntries : List (String × Literal) → List String
  | [] => []
  | (name, value) :: rest => (Text.quote name ++ ": " ++ value.render) :: renderEntries rest

end

def plainText : Literal → String
  | text s => s
  | given => given.render

def truthy : Literal → Bool
  | null => false
  | flag b => b
  | whole n => n != 0
  | real x => x != 0
  | text s => !s.isEmpty
  | list items => !items.isEmpty
  | fields entries => !entries.isEmpty

def floatOfInt (n : Int) : Except Error Float :=
  let x := Float.ofInt n
  if x.isInf then .error .overflow else .ok x

def toReal : Literal → Except Error Float
  | flag b => .ok (if b then 1 else 0)
  | whole n => floatOfInt n
  | real x => .ok x
  | text s => match Decimal.readReal? s with
    | some x => .ok x
    | none => .error .badValue
  | null | list _ | fields _ => .error .wrongType

def intOfFloat (x : Float) : Except Error Int :=
  match Decimal.Value.ofFloat x with
  | .notANumber => .error .badValue
  | .infinite _ => .error .overflow
  | .finite value => .ok value.truncate

def toWhole : Literal → Except Error Int
  | flag b => .ok (if b then 1 else 0)
  | whole n => .ok n
  | real x => intOfFloat x
  | text s => match Decimal.readWhole? s with
    | some n => .ok n
    | none => .error .badValue
  | null | list _ | fields _ => .error .wrongType

def items? : Literal → Option (List Literal)
  | list items => some items
  | text s => some (s.toList.map fun c => text (String.singleton c))
  | fields entries => some (entries.map fun (name, _) => text name)
  | _ => none

def toItems (given : Literal) : Except Error (List Literal) :=
  match given.items? with
  | some items => .ok items
  | none => .error .wrongType

def deepest : Nat := 128

def sizesWithin : Nat → Literal → Except Error (List Nat)
  | 0, list _ => .error .badValue
  | depth + 1, list (first :: rest) => do
    return (rest.length + 1) :: (← sizesWithin depth first)
  | _ + 1, list [] => .ok [0]
  | _, text s => if s.isEmpty then .ok [0] else .error .badValue
  | _, _ => .ok []

def sizes : Literal → Except Error (List Nat)
  | text _ => .error .wrongType
  | given => given.sizesWithin deepest

variable {β : Type}

def cellsBy (read : Literal → Except Error β) : List Nat → Literal → Except Error (List β)
  | [], item => do return [← read item]
  | size :: sizes, given => do
    let items ← given.toItems
    if items.length = size then
      return (← items.mapM (cellsBy read sizes)).flatten
    else throw .badValue

def tensorBy (read : Literal → Except Error β) (given : Literal) :
    Except Error (List Nat × List β) := do
  let sizes ← given.sizes
  if sizes.contains 0 then return (sizes, [])
  else return (sizes, ← given.cellsBy read sizes)

def toNumber : Literal → Except Error Float
  | text _ => .error .wrongType
  | given => given.toReal

def toTensor (given : Literal) : Except Error (List Nat × List Float) := given.tensorBy toNumber

def toVector (value : Literal) : Except Error (List Float) := do return (← value.toTensor).2

def ofTensor : List Nat → List Float → Literal
  | [], values => real (values.headD 0)
  | size :: sizes, values =>
    let width := sizes.foldl (· * ·) 1
    list ((List.range size).map fun i => ofTensor sizes ((values.drop (i * width)).take width))

inductive NumberKind where
  | flags
  | wholes
  | reals
  deriving DecidableEq, Repr

namespace NumberKind

def join : NumberKind → NumberKind → NumberKind
  | flags, k | k, flags => k
  | wholes, wholes => wholes
  | _, _ => reals

end NumberKind

mutual

def numberKind : Literal → Except Error NumberKind
  | flag _ => .ok .flags
  | whole _ => .ok .wholes
  | real _ | list [] => .ok .reals
  | list (first :: rest) => do kindOfItems (← first.numberKind) rest
  | text _ => .error .wrongType
  | null | fields _ => .error .shape

def kindOfItems (kind : NumberKind) : List Literal → Except Error NumberKind
  | [] => .ok kind
  | item :: rest => do kindOfItems (kind.join (← item.numberKind)) rest

end

def toFlag (kind : NumberKind) (given : Literal) : Except Error Bool :=
  match kind, given with
  | .wholes, whole n => if Word.fitsSigned n then .ok (n != 0) else .error .badValue
  | _, given => do return (← given.toNumber).toFloat32 != 0

def toFlags (given : Literal) : Except Error (List Bool) := do
  let _ ← given.sizes
  let kind ← given.numberKind
  return (← given.tensorBy (toFlag kind)).2

end Literal

end Passwise
