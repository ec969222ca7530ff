import Passwise.Example

set_option autoImplicit false

namespace Passwise

structure Machine (α σ ρ : Type) where
  accepts : Example α → Except Error Unit
  start : Except Error σ
  absorb : Example α → Update σ Unit
  join : σ → σ → Except Error σ
  result : σ → Except Error (Option ρ)

namespace Machine

variable {α σ ρ : Type}

def take (m : Machine α σ ρ) (e : Example α) : Update (Option σ) Unit := do
  -- A first example that fails leaves no state behind.
  Update.ofExcept (m.accepts e)
  match ← get with
  | none =>
    let state ← Update.ofExcept m.start
    let state ← Update.ofExcept ((m.absorb e).exec state)
    set (some state)
  | some state => Update.onPart (fun _ => state) (fun state _ => some state) (m.absorb e)

def merge (m : Machine α σ ρ) : Option σ → Option σ → Except Error (Option σ)
  | none, right => .ok right
  | left, none => .ok left
  | some left, some right => return some (← m.join left right)

@[simp] theorem merge_none_left (m : Machine α σ ρ) (right : Option σ) :
    m.merge none right = .ok right := rfl

@[simp] theorem merge_none_right (m : Machine α σ ρ) (left : Option σ) :
    m.merge left none = .ok left := by
  cases left <;> rfl

def conclude (m : Machine α σ ρ) : Option σ → Except Error (Option ρ)
  | none => .ok none
  | some state => m.result state

def fold (m : Machine α σ ρ) (examples : List (Example α)) (state : Option σ) :
    Except Error (Option σ) :=
  examples.foldlM (fun state e => (m.take e).exec state) state

@[simp] theorem fold_nil (m : Machine α σ ρ) (state : Option σ) : m.fold [] state = .ok state := rfl

theorem fold_append (m : Machine α σ ρ) (xs ys : List (Example α)) (state : Option σ) :
    m.fold (xs ++ ys) state = m.fold xs state >>= m.fold ys := by
  simp [fold, List.foldlM_append]
  rfl

end Machine

inductive Shape where
  | tree
  | sequential
  deriving DecidableEq, Repr

namespace Shape

def name : Shape → String
  | tree => "tree"
  | sequential => "sequential"

def ofName? (name : String) : Option Shape := [tree, sequential].find? (·.name == name)

variable {β : Type}

def pairUp (merge : β → β → Except Error β) : List β → Except Error (List β)
  -- The last value stays alone when their number is odd.
  | a :: b :: rest => return (← merge a b) :: (← pairUp merge rest)
  | rest => .ok rest

def pairwise (merge : β → β → Except Error β) : Nat → List β → Except Error (Option β)
  -- As many rounds as there are values always suffice.
  | 0, values => .ok values.head?
  | _, [] => .ok none
  | _, [value] => .ok (some value)
  | rounds + 1, values => do pairwise merge rounds (← pairUp merge values)

def reduce (shape : Shape) (merge : β → β → Except Error β) (values : List β) :
    Except Error (Option β) :=
  match shape, values with
  | tree, values => pairwise merge values.length values
  | sequential, [] => .ok none
  | sequential, first :: rest => return some (← rest.foldlM merge first)

theorem reduce_single (shape : Shape) (merge : β → β → Except Error β) (x : β) :
    shape.reduce merge [x] = .ok (some x) := by
  cases shape <;> rfl

end Shape

namespace Machine

variable {α σ ρ : Type}

def combine (m : Machine α σ ρ) (shape : Shape) (states : List (Option σ)) :
    Except Error (Option σ) :=
  return (← shape.reduce m.merge states).join

def run (m : Machine α σ ρ) (shape : Shape) (parts : List (List (Example α))) :
    Except Error (Option ρ) := do
  let states ← parts.mapM (m.fold · none)
  m.conclude (← m.combine shape states)

end Machine

end Passwise
