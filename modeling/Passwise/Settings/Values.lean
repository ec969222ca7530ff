import Passwise.Scalar.Numeral

set_option autoImplicit false

namespace Passwise.Literal

def requireFinite (what : String) (given : Literal) : Except Error Unit :=
  match given with
  | list _ => do
    if (← given.toVector).all Float.isFinite then return ()
    throw (.nonFiniteEntries what)
  | given => do
    if (← given.toReal).isFinite then return ()
    throw (.nonFinite what given.plainText)

def toCount : Literal → Except Error Int
  | flag b => .ok (if b then 1 else 0)
  | whole n => .ok n
  | _ => .error .wrongType

mutual

def mapReal (f : Float → Float) : Literal → Except Error Literal
  | list items => list <$> mapItems f items
  | null => .ok (real (f (0 / 0)))
  | given => return real (f (← given.toReal))

def mapItems (f : Float → Float) : List Literal → Except Error (List Literal)
  | [] => .ok []
  | item :: rest => return (← item.mapReal f) :: (← mapItems f rest)

end

mutual

def evenSizes : Literal → Except Error (List Nat)
  | list [] => .ok [0]
  | list (first :: rest) => do
    let inner ← first.evenSizes
    requireSizes inner rest
    return (rest.length + 1) :: inner
  | _ => .ok []

def requireSizes (sizes : List Nat) : List Literal → Except Error Unit
  | [] => .ok ()
  | item :: rest => do
    if (← item.evenSizes) != sizes then throw .badValue
    requireSizes sizes rest

end

def mapTensor (f : Float → Float) (given : Literal) : Except Error Literal := do
  let _ ← given.evenSizes
  given.mapReal f

end Passwise.Literal
