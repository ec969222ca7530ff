import Passwise.Example
import Passwise.Linear.Matrix

set_option autoImplicit false

namespace Passwise

variable {α : Type} [Scalar α]

structure Contribution (α : Type) where
  gradient : Vec α
  hessian : Mat α
  loss : α
  deriving DecidableEq, Repr

-- Sums of the exponentials of the scores, of these times the features and times their outer
-- products.
structure WeightSums (α : Type) where
  weight : α
  first : Vec α
  second : Mat α
  deriving DecidableEq, Repr

def WeightSums.zero (dimension : Nat) : WeightSums α := ⟨0, Vec.zeros dimension, Mat.zeros dimension⟩

def WeightSums.add (s t : WeightSums α) : WeightSums α :=
  ⟨s.weight + t.weight, Vec.add s.first t.first, List.zipWith Vec.add s.second t.second⟩

structure RiskSet (α : Type) where
  dimension : Nat
  closed : WeightSums α
  -- The time of the open group, taken from its first example.
  groupTime : Option α
  group : WeightSums α
  deaths : Nat
  deathFeatures : Vec α
  deathScore : α
  deriving DecidableEq, Repr

namespace RiskSet

def tolerance : α := 1 / Scalar.ofInt 1000000

def empty (dimension : Nat) : RiskSet α :=
  ⟨dimension, .zero dimension, none, .zero dimension, 0, Vec.zeros dimension, 0⟩

def ofDimension? (dimension : Int) : Except Error (RiskSet α) :=
  return empty (← Vec.length? dimension)

def isEmpty (r : RiskSet α) : Bool := r.groupTime.isNone

def contribution (r : RiskSet α) : Except Error (Contribution α) :=
  if r.deaths = 0 then .ok ⟨Vec.zeros r.dimension, Mat.zeros r.dimension, 0⟩
  else
    let deaths : α := Scalar.ofNat r.deaths
    let mean := r.closed.first.map (· / r.closed.weight)
    let second := r.closed.second.map fun row => row.map (· / r.closed.weight)
    -- a sum that is not a number has a logarithm that is not one either
    if r.closed.weight ≤ 0 then .error .badValue
    else .ok {
      gradient := Vec.neg (Vec.sub r.deathFeatures (Vec.scale deaths mean))
      hessian := Mat.scale deaths (Mat.sub second (Mat.outer mean mean))
      loss := -(r.deathScore - deaths * Scalar.log r.closed.weight) }

def absorbGroup : Update (RiskSet α) (Contribution α) := do
  -- The group's time stays for the next example to be compared with.
  modify fun r => { r with closed := r.closed.add r.group }
  let contribution ← Update.ofExcept (← get).contribution
  modify fun r => { r with
    group := .zero r.dimension
    deaths := 0
    deathFeatures := Vec.zeros r.dimension
    deathScore := 0 }
  return contribution

def advance (time : α) : Update (RiskSet α) (Option (Contribution α)) := do
  match (← get).groupTime with
  | none =>
    modify fun r => { r with groupTime := some time }
    return none
  | some groupTime =>
    if groupTime + tolerance < time then throw .timesNotDescending
    else if tolerance ≤ groupTime - time then
      let closed ← absorbGroup
      modify fun r => { r with groupTime := some time }
      return some closed
    else return none

def enter (features : Vec α) (event : Bool) (score weight : α) : Update (RiskSet α) Unit := do
  -- The example is held back in the open group; a death counts its features and its score too.
  modify fun r => { r with group := { r.group with weight := r.group.weight + weight } }
  let first ← Update.ofExcept (Vec.addTo (← get).group.first (Vec.scale weight features))
  modify fun r => { r with group := { r.group with first := first } }
  let outer := Mat.scale weight (Mat.outer features features)
  let second ← Update.ofExcept (Mat.addTo (← get).group.second outer)
  modify fun r => { r with group := { r.group with second := second } }
  if event then
    modify fun r => { r with deaths := r.deaths + 1 }
    let features ← Update.ofExcept (Vec.addTo (← get).deathFeatures features)
    modify fun r => { r with deathFeatures := features, deathScore := r.deathScore + score }

def add (model : Vec α) (e : Example α) : Update (RiskSet α) (Option (Contribution α)) := do
  match e.label with
  | .plain _ => throw .labelWithoutTime
  | .survival time event =>
    let closed ← advance time
    let score ← Update.ofExcept (Vec.dot? model e.features)
    let weight := Scalar.exp score
    if !Scalar.isFinite weight then throw (.nonFinite "Cox risk score" (Scalar.render weight))
    enter e.features event score weight
    return closed

end RiskSet

end Passwise
