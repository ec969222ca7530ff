import Passwise.Objective
import Passwise.Source

set_option autoImplicit false

namespace Passwise

variable {α : Type} [Scalar α]

structure Draws (α : Type) where
  normal : Nat → α
  uniform : Nat → α

namespace Draws

def cycle (values : List α) (i : Nat) : α := values[i % values.length]?.getD Scalar.half

def take (stream : Nat → α) (start count : Nat) : Vec α :=
  (List.range count).map fun i => stream (start + i)

def takeRows (stream : Nat → α) (start rows width : Nat) : List (Vec α) :=
  (List.range rows).map fun i => take stream (start + i * width) width

end Draws

inductive Dataset where
  | separable
  | binary
  | linear
  | survival
  deriving DecidableEq, Repr

namespace Dataset

def all : List Dataset := [separable, binary, linear, survival]

def name : Dataset → String
  | separable => "separable"
  | binary => "binary"
  | linear => "linear"
  | survival => "survival"

def ofName? (name : String) : Option Dataset := all.find? (·.name == name)

def suited : Objective → Dataset
  | .svm => separable
  | .logistic => binary
  | .ridge | .lasso => linear
  | .cox => survival

def classes (draws : Draws α) (rows width : Nat) : List (Vec α) × List α :=
  let plane := Draws.take draws.normal 0 width
  let features := Draws.takeRows draws.normal width rows width
  let unit := plane.map (· / Vec.norm plane)
  let moved := features.map fun x =>
    Vec.add x (Vec.scale (Scalar.half * Scalar.sign (Vec.dot x plane)) unit)
  (moved, moved.map fun x => if 0 < Vec.dot x plane then 1 else -1)

def coefficients (draws : Draws α) (start width : Nat) : Vec α :=
  (Draws.take draws.normal start width).map (· / Scalar.sqrt (Scalar.ofNat width))

def response (draws : Draws α) (rows width : Nat) (noise : α) :
    Except Error (List (Vec α) × List α) := do
  let noise ← Scalar.factor noise
  let features := Draws.takeRows draws.normal 0 rows width
  let weights := coefficients draws (rows * width) width
  let errors := Draws.take draws.normal (rows * width + width) rows
  return (features, List.zipWith (fun x error => Vec.dot x weights + noise * error) features errors)

def lifetimes (draws : Draws α) (rows width : Nat) : List (Vec α) × List α × List Bool :=
  let features := Draws.takeRows draws.normal 0 rows width
  let weights := coefficients draws (rows * width) width
  let least : α := 1 / Scalar.power (Scalar.ofInt 10) 12
  let censored : α := Scalar.ofInt 3 / Scalar.ofInt 10
  let times := List.zipWith (fun x u =>
    -Scalar.log (Scalar.atLeast least u) / Scalar.exp (Vec.dot x weights)) features
    (Draws.take draws.uniform 0 rows)
  (features, times, (Draws.take draws.uniform rows rows).map fun u => decide (censored ≤ u))

def generateSized (d : Dataset) (draws : Draws α) (rows width : Nat) (noise : α) :
    Except Error (Source α) :=
  match d with
  | separable =>
    let (features, labels) := classes draws rows width
    Source.ofColumns width features labels none
  | binary =>
    let (features, labels) := classes draws rows width
    Source.ofColumns width features (labels.map fun y => if 0 < y then 1 else 0) none
  | linear => do
    let (features, values) ← response draws rows width noise
    Source.ofColumns width features values none
  | survival =>
    let (features, times, events) := lifetimes draws rows width
    Source.ofColumns width features times (some events)

def generate (d : Dataset) (draws : Draws α) (rows width : Int) (noise : α) :
    Except Error (Source α) :=
  if rows < 0 || width < 0 then .error .shape
  else generateSized d draws rows.toNat width.toNat noise

end Dataset

end Passwise
