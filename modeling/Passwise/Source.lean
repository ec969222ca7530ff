import Passwise.Example

set_option autoImplicit false

namespace Passwise

variable {α : Type}

structure Source (α : Type) where
  dimension : Nat
  survival : Bool
  examples : List (Example α)
  uniform : ∀ e ∈ examples, e.dimension = dimension ∧ e.label.isSurvival = survival

namespace Source

def size (s : Source α) : Nat := s.examples.length

def make (dimension : Nat) (survival : Bool) (examples : List (Example α)) :
    Except Error (Source α) :=
  if h : ∀ e ∈ examples, e.dimension = dimension ∧ e.label.isSurvival = survival then
    .ok ⟨dimension, survival, examples, h⟩
  else .error .shape

def ofColumns (dimension : Nat) (features : List (Vec α)) (numbers : List α)
    (events : Option (List Bool)) : Except Error (Source α) :=
  if numbers.length != features.length then
    .error (.labelCount features.length numbers.length)
  else match events with
    | none => make dimension false (List.zipWith (fun x y => ⟨x, .plain y⟩) features numbers)
    | some events =>
      if events.length != features.length then
        .error (.eventCount features.length events.length)
      else
        let labels := List.zipWith Label.survival numbers events
        make dimension true (List.zipWith Example.mk features labels)

def ofExamples : List (Example α) → Except Error (Source α)
  -- The first example decides on dimension and kind of label. Features are compared first.
  | [] => .error .noExamples
  | first :: rest =>
    let survival := first.label.isSurvival
    if rest.any fun e => e.dimension != first.dimension then .error .shape
    else if rest.any fun e => e.label.isSurvival != survival then
      .error (if survival then .missingPart else .wrongType)
    else make first.dimension survival (first :: rest)

def cut {β : Type} : Nat → List β → List (List β)
  | 0, _ => []
  | n + 1, items =>
    let size := (items.length + n) / (n + 1)
    items.take size :: cut n (items.drop size)

@[simp] theorem length_cut {β : Type} (n : Nat) (items : List β) : (cut n items).length = n := by
  induction n generalizing items with
  | zero => rfl
  | succ n ih => simp [cut, ih]

theorem flatten_cut {β : Type} (n : Nat) (items : List β) : (cut (n + 1) items).flatten = items := by
  induction n generalizing items with
  | zero => simp [cut]
  | succ n ih => rw [cut, List.flatten_cons, ih, List.take_append_drop]

def parts (s : Source α) (order : List Nat) (parts : Int) :
    Except Error (List (List (Example α))) :=
  if parts < 1 then .error .partsBelowOne
  else .ok (cut parts.toNat (order.filterMap (s.examples[·]?)))

variable [Scalar α]

-- Whether a time may stand before another one: later times first, and before them what is not a
-- number.
def notBefore (a b : α) : Bool := Scalar.isNaN a || (!Scalar.isNaN b && decide (b ≤ a))

def byDescendingTime (s : Source α) : List (Example α) :=
  s.examples.mergeSort fun a b => notBefore a.label.number b.label.number

end Source

end Passwise
