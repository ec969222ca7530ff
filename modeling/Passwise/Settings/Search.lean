import Passwise.Scalar.Numeral
import Passwise.Search
import Passwise.Settings.Fields
import Passwise.Settings.Values

set_option autoImplicit false

namespace Passwise.Search

def requireCounts (task : Task Numeral) (models : Nat) (stepsizes : Option Nat) :
    Except Error Unit := do
  if models = 0 then throw .noCandidates
  if let some count := stepsizes then
    if count != models then throw (.stepsizeCount models count)
  if task.objective.usesRiskSet then throw .searchOverRiskSet

def ofLiterals (task : Task Numeral) (models stepsizes : Literal) :
    Except Error (Search Numeral) := do
  let models ← models.toItems
  let stepsizes ← match stepsizes with
    | .null => pure none
    | given => some <$> given.toItems
  requireCounts task models.length (stepsizes.map List.length)
  let models ← models.mapM Numeral.vector
  let unread := stepsizes.map (·.map fun _ => (0 : Numeral))
  let _ ← make task models unread
  make task models (← stepsizes.mapM fun given =>
    given.mapM fun (step : Literal) => return .real (← step.toReal))

end Passwise.Search

namespace Passwise

def backtrackingOf (first factor count : Literal) : Except Error (List Numeral) := do
  -- The values are compared in turn, so that a later one is not looked at once an earlier one is
  -- refused, and only then read.
  let order ← first.compareNumbers (.whole 0)
  if order == some .lt || order == some .eq then throw .badBacktracking
  if !(← (Literal.whole 0).lessThan factor) then throw .badBacktracking
  if !(← factor.belowOne) then throw .badBacktracking
  if ← count.belowOne then throw .badBacktracking
  let count ← count.toCount
  backtracking (.real (← first.toNumber)) (.real (← factor.toNumber)) count

end Passwise
