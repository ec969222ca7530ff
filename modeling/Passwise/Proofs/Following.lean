import Passwise.Proofs.Pass

set_option autoImplicit false

namespace Passwise

namespace Shape

variable {β : Type} {merge : β → β → Except Error β}

-- The value of a reduction is that of some tree over the values, in their order.
def Gathers (merge : β → β → Except Error β) (values : List β) : Option β → Prop
  | none => values = []
  | some value => ∃ tree : MergeTree β, tree.leaves = values ∧ tree.eval merge = .ok value

abbrev Evaluate (merge : β → β → Except Error β) : List (MergeTree β) → List β → Prop :=
  List.Forall₂ fun tree value => tree.eval merge = .ok value

theorem pairUp_trees {trees : List (MergeTree β)} {values paired : List β}
    (evaluate : Evaluate merge trees values) (done : pairUp merge values = .ok paired) :
    ∃ nodes, Evaluate merge nodes paired ∧
      nodes.flatMap MergeTree.leaves = trees.flatMap MergeTree.leaves ∧
      2 * paired.length ≤ values.length + 1 := by
  induction values using pairUp.induct generalizing trees paired with
  | case1 a b rest ih =>
    obtain _ | ⟨first, _ | ⟨second, others⟩⟩ := evaluate
    rename_i left right trees
    simp only [pairUp] at done
    obtain ⟨c, merged, done⟩ := bind_eq_ok.mp done
    obtain ⟨later, others', done⟩ := bind_eq_ok.mp done
    cases done
    obtain ⟨nodes, evaluates, leaves, short⟩ := ih others others'
    have node : (MergeTree.node left right).eval merge = .ok c := by
      rw [MergeTree.eval, first, ok_bind, second, ok_bind, merged]
    refine ⟨.node left right :: nodes, .cons node evaluates, ?_, ?_⟩
    · simp only [List.flatMap_cons, MergeTree.leaves, leaves, List.append_assoc]
    · simp only [List.length_cons]
      omega
  | case2 values short =>
    have few := length_lt_two short
    rw [pairUp_short few, Except.ok.injEq] at done
    subst done
    exact ⟨trees, evaluate, rfl, by omega⟩

theorem pairwise_gathers {rounds : Nat} {trees : List (MergeTree β)} {values : List β}
    {value : Option β} (enough : values.length ≤ rounds) (evaluate : Evaluate merge trees values)
    (done : pairwise merge rounds values = .ok value) :
    Gathers merge (trees.flatMap MergeTree.leaves) value := by
  induction rounds generalizing trees values with
  | zero =>
    obtain rfl := List.length_eq_zero_iff.mp (Nat.le_zero.mp enough)
    cases evaluate
    cases done
    rfl
  | succ rounds ih =>
    rcases evaluate with _ | ⟨first, _ | ⟨second, others⟩⟩
    · cases done
      rfl
    · cases done
      exact ⟨_, by simp, first⟩
    · obtain ⟨paired, pairs, done⟩ := bind_eq_ok.mp done
      obtain ⟨nodes, evaluates, leaves, short⟩ :=
        pairUp_trees (.cons first (.cons second others)) pairs
      simp only [List.length_cons] at short enough
      rw [← leaves]
      exact ih (by omega) evaluates done

theorem foldlM_tree {tree : MergeTree β} {first value : β} {values : List β}
    (evaluates : tree.eval merge = .ok first) (done : values.foldlM merge first = .ok value) :
    ∃ whole : MergeTree β, whole.leaves = tree.leaves ++ values ∧ whole.eval merge = .ok value := by
  induction values generalizing tree first with
  | nil =>
    cases done
    exact ⟨tree, by simp, evaluates⟩
  | cons next values ih =>
    rw [List.foldlM_cons] at done
    obtain ⟨joined, merged, done⟩ := bind_eq_ok.mp done
    have node : (MergeTree.node tree (.leaf next)).eval merge = .ok joined := by
      rw [MergeTree.eval, evaluates, ok_bind, MergeTree.eval, ok_bind, merged]
    obtain ⟨whole, leaves, same⟩ := ih node done
    exact ⟨whole, by simp [leaves, MergeTree.leaves], same⟩

theorem reduce_gathers {shape : Shape} {values : List β} {value : Option β}
    (done : shape.reduce merge values = .ok value) : Gathers merge values value := by
  cases shape with
  | tree =>
    have each : Evaluate merge (values.map MergeTree.leaf) values := by
      rw [Evaluate, List.forall₂_map_left_iff]
      exact List.forall₂_same.mpr fun _ _ => rfl
    have leaves : (values.map MergeTree.leaf).flatMap MergeTree.leaves = values := by
      induction values with
      | nil => rfl
      | cons value values ih => simp [MergeTree.leaves, List.flatMap_map]
    rw [← leaves]
    exact pairwise_gathers (Nat.le_refl _) each done
  | sequential => cases values with
    | nil =>
      cases done
      rfl
    | cons first values =>
      obtain ⟨last, folded, done⟩ := bind_eq_ok.mp done
      cases done
      have leaf : (MergeTree.leaf first).eval merge = .ok first := rfl
      exact foldlM_tree leaf folded

theorem holds_of_eval {P : β → Prop}
    (keeps : ∀ a b c, P a → P b → merge a b = .ok c → P c) {tree : MergeTree β} {value : β}
    (leaves : ∀ x ∈ tree.leaves, P x) (done : tree.eval merge = .ok value) : P value := by
  induction tree generalizing value with
  | leaf x =>
    cases done
    exact leaves x (List.mem_singleton.mpr rfl)
  | node left right ihLeft ihRight =>
    obtain ⟨a, doneLeft, done⟩ := bind_eq_ok.mp done
    obtain ⟨b, doneRight, merged⟩ := bind_eq_ok.mp done
    exact keeps a b value
      (ihLeft (fun x member => leaves x (List.mem_append_left _ member)) doneLeft)
      (ihRight (fun x member => leaves x (List.mem_append_right _ member)) doneRight) merged

theorem holds_of_reduce {P : β → Prop} (keeps : ∀ a b c, P a → P b → merge a b = .ok c → P c)
    {shape : Shape} {values : List β} {value : β} (all : ∀ x ∈ values, P x)
    (done : shape.reduce merge values = .ok (some value)) : P value := by
  obtain ⟨tree, rfl, evaluated⟩ := reduce_gathers done
  exact holds_of_eval keeps all evaluated

end Shape

namespace Machine

variable {α σ ρ : Type}

def gathered (m : Machine α σ ρ) (shape : Shape) (parts : List (List (Example α))) :
    Except Error (Option σ) := do
  m.combine shape (← parts.mapM (m.fold · none))

theorem run_eq_gathered (m : Machine α σ ρ) (shape : Shape) (parts : List (List (Example α))) :
    m.run shape parts = m.gathered shape parts >>= m.conclude := by
  rw [run, gathered]
  cases parts.mapM (m.fold · none) <;> rfl

structure Tells (m : Machine α σ ρ) (holds : List (Example α) → σ → Prop) : Prop where
  start : ∀ state, m.start = .ok state → holds [] state
  absorb : ∀ xs e state next, holds xs state → m.accepts e = .ok () →
    (m.absorb e).exec state = .ok next → holds (xs ++ [e]) next
  join : ∀ xs ys left right whole, xs ≠ [] → ys ≠ [] → holds xs left → holds ys right →
    m.join left right = .ok whole → holds (xs ++ ys) whole

def Stands (holds : List (Example α) → σ → Prop) (xs : List (Example α)) : Option σ → Prop
  | none => xs = []
  | some state => xs ≠ [] ∧ holds xs state

variable {m : Machine α σ ρ} {holds : List (Example α) → σ → Prop}

namespace Tells

theorem fold_some (tells : m.Tells holds) {before xs : List (Example α)} {state : σ}
    {last : Option σ} (known : holds before state) (folded : m.fold xs (some state) = .ok last) :
    ∃ reached, last = some reached ∧ holds (before ++ xs) reached := by
  induction xs generalizing before state with
  | nil =>
    cases folded
    exact ⟨state, rfl, by rwa [List.append_nil]⟩
  | cons e xs ih =>
    rw [fold_cons] at folded
    obtain ⟨next, taken, folded⟩ := bind_eq_ok.mp folded
    obtain ⟨accepted, moved, absorbed, rfl⟩ := take_some_eq_ok taken
    obtain ⟨reached, same, after⟩ :=
      ih (tells.absorb before e state moved known accepted absorbed) folded
    exact ⟨reached, same, by rwa [List.append_assoc] at after⟩

theorem fold_none (tells : m.Tells holds) {xs : List (Example α)} {last : Option σ}
    (folded : m.fold xs none = .ok last) : Stands holds xs last := by
  cases xs with
  | nil =>
    cases folded
    rfl
  | cons e xs =>
    rw [fold_cons] at folded
    obtain ⟨next, taken, folded⟩ := bind_eq_ok.mp folded
    obtain ⟨state, started, taken⟩ := take_none_eq_ok taken
    have whole : m.fold (e :: xs) (some state) = .ok last := by
      rw [fold_cons, taken, ok_bind, folded]
    obtain ⟨reached, rfl, after⟩ := tells.fold_some (tells.start state started) whole
    exact ⟨by simp, after⟩

theorem merge (tells : m.Tells holds) {xs ys : List (Example α)} {left right whole : Option σ}
    (before : Stands holds xs left) (before' : Stands holds ys right)
    (merged : m.merge left right = .ok whole) : Stands holds (xs ++ ys) whole := by
  cases left with
  | none =>
    cases merged
    rwa [before, List.nil_append]
  | some left =>
    cases right with
    | none =>
      cases merged
      rwa [before', List.append_nil]
    | some right =>
      obtain ⟨state, joined, merged⟩ := bind_eq_ok.mp merged
      cases merged
      exact ⟨by simp [before.1],
        tells.join xs ys left right state before.1 before'.1 before.2 before'.2 joined⟩

theorem eval (tells : m.Tells holds) {tree : MergeTree (Option σ)}
    {parts : List (List (Example α))} {whole : Option σ}
    (before : List.Forall₂ (Stands holds) parts tree.leaves)
    (done : tree.eval m.merge = .ok whole) : Stands holds parts.flatten whole := by
  induction tree generalizing parts whole with
  | leaf state =>
    obtain _ | ⟨first, _ | _⟩ := before
    cases done
    simpa using first
  | node left right ihLeft ihRight =>
    obtain ⟨a, doneLeft, done⟩ := bind_eq_ok.mp done
    obtain ⟨b, doneRight, merged⟩ := bind_eq_ok.mp done
    have front := ihLeft (List.forall₂_take_append _ _ _ before) doneLeft
    have back := ihRight (List.forall₂_drop_append _ _ _ before) doneRight
    rw [← List.take_append_drop left.leaves.length parts, List.flatten_append]
    exact tells.merge front back merged

theorem stands_of_combine (tells : m.Tells holds) {shape : Shape}
    {parts : List (List (Example α))} {states : List (Option σ)} {last : Option σ}
    (each : List.Forall₂ (Stands holds) parts states)
    (combined : m.combine shape states = .ok last) : Stands holds parts.flatten last := by
  obtain ⟨reduced, gathered, combined⟩ := bind_eq_ok.mp combined
  cases combined
  have gathers := Shape.reduce_gathers gathered
  cases reduced with
  | none =>
    obtain rfl : states = [] := gathers
    cases each
    rfl
  | some state =>
    obtain ⟨tree, rfl, evaluated⟩ := gathers
    exact tells.eval each evaluated

theorem stands_of_gathered (tells : m.Tells holds) {shape : Shape}
    {parts : List (List (Example α))} {last : Option σ}
    (ended : m.gathered shape parts = .ok last) : Stands holds parts.flatten last := by
  obtain ⟨states, folded, combined⟩ := bind_eq_ok.mp ended
  exact tells.stands_of_combine ((forall₂_of_mapM folded).imp fun _ _ => tells.fold_none) combined

theorem run_ok (tells : m.Tells holds) {shape : Shape} {parts : List (List (Example α))}
    {result : Option ρ} (done : m.run shape parts = .ok result) :
    (parts.flatten = [] ∧ result = none) ∨
      (parts.flatten ≠ [] ∧ ∃ state, holds parts.flatten state ∧ m.result state = .ok result) := by
  rw [run_eq_gathered] at done
  obtain ⟨last, ended, done⟩ := bind_eq_ok.mp done
  have stands := tells.stands_of_gathered ended
  cases last with
  | none =>
    cases done
    exact .inl ⟨stands, rfl⟩
  | some state => exact .inr ⟨stands.1, state, stands.2, done⟩

end Tells

structure Follows (m : Machine α σ ρ) (good : Example α → Prop)
    (holds : List (Example α) → σ → Prop) : Prop extends m.Tells holds where
  starts : ∃ state, m.start = .ok state
  absorbs : ∀ xs e state, good e → holds xs state →
    m.accepts e = .ok () ∧ ∃ next, (m.absorb e).exec state = .ok next
  joins : ∀ xs ys left right, xs ≠ [] → ys ≠ [] → holds xs left → holds ys right →
    ∃ whole, m.join left right = .ok whole

namespace Follows

variable {good : Example α → Prop}

theorem fold_some (follows : m.Follows good holds) {before xs : List (Example α)} {state : σ}
    (all : ∀ e ∈ xs, good e) (known : holds before state) :
    ∃ last, m.fold xs (some state) = .ok last := by
  induction xs generalizing before state with
  | nil => exact ⟨some state, rfl⟩
  | cons e xs ih =>
    obtain ⟨first, others⟩ := List.forall_mem_cons.mp all
    obtain ⟨accepted, next, absorbed⟩ := follows.absorbs before e state first known
    have after := follows.absorb before e state next known accepted absorbed
    obtain ⟨last, folded⟩ := ih others after
    exact ⟨last, by rw [fold_cons, take_some, accepted, ok_bind, absorbed, map_ok, ok_bind, folded]⟩

theorem fold_none (follows : m.Follows good holds) {xs : List (Example α)}
    (all : ∀ e ∈ xs, good e) : ∃ last, m.fold xs none = .ok last ∧ Stands holds xs last := by
  obtain ⟨start, started⟩ := follows.starts
  obtain ⟨last, folded⟩ := follows.fold_some all (follows.start start started)
  by_cases nonempty : xs = []
  · subst nonempty
    exact ⟨none, rfl, rfl⟩
  · rw [fold_start started nonempty] at folded
    exact ⟨last, folded, follows.toTells.fold_none folded⟩

theorem merge (follows : m.Follows good holds) :
    Shape.Respects (Stands holds) Shape.append m.merge := by
  intro xs ys left right before before'
  have goes : ∃ whole, m.merge left right = .ok whole := by
    rcases left with _ | left
    · exact ⟨right, rfl⟩
    rcases right with _ | right
    · exact ⟨some left, rfl⟩
    obtain ⟨whole, joined⟩ :=
      follows.joins xs ys left right before.1 before'.1 before.2 before'.2
    exact ⟨some whole, by rw [Machine.merge, joined]; rfl⟩
  obtain ⟨whole, merged⟩ := goes
  exact ⟨_, whole, rfl, merged, follows.toTells.merge before before' merged⟩

theorem run_eq (follows : m.Follows good holds) (shape : Shape)
    {parts : List (List (Example α))} (all : ∀ e ∈ parts.flatten, good e)
    (nonempty : parts.flatten ≠ []) :
    ∃ state, m.gathered shape parts = .ok (some state) ∧ holds parts.flatten state ∧
      m.run shape parts = m.result state := by
  have goes : List.Forall₂ (fun part part' =>
      ∃ last, m.fold part' none = .ok last ∧ Stands holds part last) parts parts :=
    List.forall₂_same.mpr fun part member =>
      follows.fold_none fun e inside => all e (List.mem_flatten.mpr ⟨part, member, inside⟩)
  obtain ⟨states, folded, each⟩ := mapM_of_forall₂ goes
  obtain ⟨_, value, -, reduced, -⟩ := Shape.reduce_related follows.merge shape each
  have ended : m.gathered shape parts = .ok value.join := by
    rw [gathered, folded, ok_bind, combine, reduced]
    rfl
  have stands := follows.toTells.stands_of_gathered ended
  rw [run_eq_gathered, ended]
  cases last : value.join with
  | none =>
    rw [last] at stands
    exact absurd stands nonempty
  | some state =>
    rw [last] at stands
    exact ⟨state, rfl, stands.2, rfl⟩

end Follows

end Machine

end Passwise
