import Passwise.Scalar.Numeral
import Passwise.Settings.Fields
import Passwise.Source

set_option autoImplicit false

namespace Passwise

def Label.ofLiteral : Literal → Except Error (Label Numeral)
  | .fields given => do
    return .survival (.real (← (Fields.get given "t").toReal)) (Fields.get given "e").truthy
  | given => do return .plain (.real (← given.toReal))

def Example.ofFields (given : Fields) : Except Error (Example Numeral) := do
  let features ← Numeral.vector (given.get "x")
  return ⟨features, ← Label.ofLiteral (given.get "y")⟩

def Source.ofFields (given : Fields) : Except Error (Source Numeral) := do
  let (sizes, cells) ← (given.get "X").toTensor
  let [rows, width] := sizes | throw (.notTwoDimensional sizes)
  let numbers ← Numeral.vector (given.get "y")
  if numbers.length != rows then throw (.labelCount rows numbers.length)
  let events ← match given.get "event" with
    | .null => pure none
    | flags => some <$> flags.toFlags
  let features := (List.range rows).map fun i => (cells.drop (i * width)).take width
  Source.ofColumns width (features.map (·.map .real)) numbers events

end Passwise
