import Passwise.Proofs.TieGroups

set_option autoImplicit false

namespace Passwise

namespace Machine

variable {α σ ρ : Type}

inductive Reachable (m : Machine α σ ρ) : Option σ → Prop
  | empty : m.Reachable none
  | start {state : σ} (started : m.start = .ok state) : m.Reachable (some state)
  | take {state next : Option σ} {e : Example α} (reached : m.Reachable state)
      (taken : (m.take e).exec state = .ok next) : m.Reachable next
  | merge {left right whole : Option σ} (reached : m.Reachable left)
      (reached' : m.Reachable right) (merged : m.merge left right = .ok whole) :
      m.Reachable whole

def After (m : Machine α σ ρ) (start : σ) (stream : List (Example α)) (state : σ) : Prop :=
  m.fold stream (some start) = .ok (some state)

variable {m : Machine α σ ρ} {start : σ}

theorem Reachable.fold {state last : Option σ} (reached : m.Reachable state)
    {xs : List (Example α)} (folded : m.fold xs state = .ok last) : m.Reachable last := by
  induction xs generalizing state with
  | nil =>
    cases folded
    exact reached
  | cons e xs ih =>
    rw [fold_cons] at folded
    obtain ⟨next, taken, folded⟩ := bind_eq_ok.mp folded
    exact ih (.take reached taken) folded

theorem Reachable.exists_start {state : Option σ} (reached : m.Reachable state) :
    ∀ s ∈ state, ∃ start, m.start = .ok start := by
  induction reached with
  | empty => simp
  | start started => exact fun _ _ => ⟨_, started⟩
  | @take state next e _ taken ih =>
    cases state with
    | none =>
      obtain ⟨start, started, -⟩ := take_none_eq_ok taken
      exact fun _ _ => ⟨start, started⟩
    | some state => exact fun _ _ => ih state rfl
  | @merge left right whole _ _ merged ihLeft ihRight =>
    cases left with
    | none =>
      cases merged
      exact ihRight
    | some left => exact fun _ _ => ihLeft left rfl

theorem Reachable.exists_stream (started : m.start = .ok start)
    (joins : ∀ {xs ys left right whole}, m.After start xs left → m.After start ys right →
      m.join left right = .ok whole → ∃ zs, m.After start zs whole)
    {state : Option σ} (reached : m.Reachable state) :
    ∀ s ∈ state, ∃ stream, m.After start stream s := by
  induction reached with
  | empty => simp
  | start same =>
    rintro _ ⟨⟩
    rw [started, Except.ok.injEq] at same
    subst same
    exact ⟨[], rfl⟩
  | @take state next e _ taken ih =>
    rintro s rfl
    cases state with
    | none =>
      rw [← take_start started] at taken
      exact ⟨[e], by rw [After, fold_cons, taken, ok_bind, fold_nil]⟩
    | some state =>
      obtain ⟨stream, after⟩ := ih state rfl
      refine ⟨stream ++ [e], ?_⟩
      rw [After, fold_append, after, ok_bind, fold_cons, taken, ok_bind, fold_nil]
  | @merge left right whole _ _ merged ihLeft ihRight =>
    rintro s rfl
    cases left with
    | none =>
      cases merged
      exact ihRight s rfl
    | some left =>
      cases right with
      | none =>
        cases merged
        exact ihLeft _ rfl
      | some right =>
        obtain ⟨xs, afterLeft⟩ := ihLeft left rfl
        obtain ⟨ys, afterRight⟩ := ihRight right rfl
        obtain ⟨_, joined, merged⟩ := bind_eq_ok.mp merged
        cases merged
        exact joins afterLeft afterRight joined

end Machine

variable {α : Type} [Exact α] {start state left right whole : PassState α}
  {xs ys : List (Example α)}

namespace Strategy.Additive

variable {s : Strategy α} {o : Objective} {curved : Bool}

theorem after_iff (additive : s.Additive o curved) (started : s.start = .ok start) :
    s.machine.After start xs state ↔
      (xs ≠ [] → start.model.length = s.origin.task.dimension) ∧
      (∀ e ∈ xs, e.Alike s.origin.task.dimension false) ∧
      state = Share.state start curved
        (xs.map (o.share (Vec.entries s.origin.task.dimension start.model))).sum := by
  have fresh := additive.start_eq started
  by_cases empty : xs = []
  · subst empty
    simp [Machine.After, ← fresh, eq_comm]
  · have folded (fits : start.model.length = s.origin.task.dimension)
        (alike : ∀ e ∈ xs, e.Alike s.origin.task.dimension false) := by
      have folded := (additive.summing started fits).fold_some alike 0
      rw [← fresh, zero_add] at folded
      exact folded
    constructor
    · intro after
      have alike := additive.alike_of_fold after
      have fits : start.model.length = s.origin.task.dimension := by
        obtain ⟨e, rest, rfl⟩ := List.exists_cons_of_ne_nil empty
        rw [Machine.After, Machine.fold_cons] at after
        obtain ⟨next, taken, -⟩ := bind_eq_ok.mp after
        exact (additive.alike_of_take taken).2
      have same := (folded fits alike).symm.trans after
      cases same
      exact ⟨fun _ => fits, alike, rfl⟩
    · rintro ⟨fits, alike, rfl⟩
      exact folded (fits empty) alike

theorem after_join (additive : s.Additive o curved) (started : s.start = .ok start)
    (afterLeft : s.machine.After start xs left) (afterRight : s.machine.After start ys right)
    (joined : s.machine.join left right = .ok whole) :
    s.machine.After start (xs ++ ys) whole := by
  obtain ⟨fits, alike, rfl⟩ := (additive.after_iff started).mp afterLeft
  obtain ⟨fits', alike', rfl⟩ := (additive.after_iff started).mp afterRight
  change s.join _ _ = _ at joined
  rw [additive.join_state, Except.ok.injEq] at joined
  rw [additive.after_iff started, List.map_append, List.sum_append]
  refine ⟨fun some => ?_, List.forall_mem_append.mpr ⟨alike, alike'⟩, joined.symm⟩
  by_cases empty : xs = []
  · exact fits' (by simpa [empty] using some)
  · exact fits empty

end Strategy.Additive

namespace Newton

open Breslow

variable [DenseSolver α] {n : Newton α} {d : Nat}

def since (start : PassState α) (sums : α × (Fin d → α) × Matrix (Fin d) (Fin d) α)
    (risk : Option (RiskSet α)) (rows : Int) : PassState α :=
  { start with
    totals := ⟨sums.1, some (Vec.of sums.2.1), some (Mat.of sums.2.2), risk⟩
    rows := rows }

theorem join_since (start : PassState α) (a b : α × (Fin d → α) × Matrix (Fin d) (Fin d) α)
    (risk risk' : Option (RiskSet α)) (rows rows' : Int) :
    n.strategy.join (since start a risk rows) (since start b risk' rows') =
      if risk.isSome && risk'.isSome then .error .severalRiskSets
      else .ok (since start (a + b) (risk.or risk') (rows + rows')) := by
  have sameTask : (since start a risk rows).task.dimension =
      (since start b risk' rows').task.dimension := rfl
  rw [Strategy.join, if_pos sameTask]
  change (joined _ _ >>= _) = _
  by_cases both : (risk.isSome && risk'.isSome) = true
  · simp only [joined, since, both, if_true]
    rfl
  · simp only [joined, since, both, sumParts, Vec.add?_of, Mat.add?_of]
    rfl

theorem coxFrom_since (w : Fin d → α) (size : n.origin.task.dimension = d)
    (started : n.strategy.start = .ok start) (stream : List (Example α)) :
    coxFrom w start stream = since start (scored w [] (Groups.ofStream stream).closed)
      (if stream = [] then none else some ((Groups.ofStream stream).riskSet w)) stream.length := by
  have totals := totals_from w size started stream
  obtain ⟨_, rows, _⟩ := Strategy.start_fresh started
  dsimp only at totals
  rw [since, ← totals]
  by_cases empty : stream = []
  · simp [coxFrom, empty, ← rows]
  · simp [coxFrom, empty, coxState]

theorem join_start (w : Fin d → α) (size : n.origin.task.dimension = d)
    (started : n.strategy.start = .ok start) (stream : List (Example α)) :
    n.strategy.join start (coxFrom w start stream) = .ok (coxFrom w start stream) ∧
      n.strategy.join (coxFrom w start stream) start = .ok (coxFrom w start stream) := by
  have fresh : start = since start 0 none 0 := coxFrom_since w size started []
  rw [coxFrom_since w size started stream]
  constructor
  · have joined := join_since (n := n) start 0 (scored w [] (Groups.ofStream stream).closed) none
      (if stream = [] then none else some ((Groups.ofStream stream).riskSet w)) 0 stream.length
    rw [← fresh] at joined
    simpa using joined
  · have joined := join_since (n := n) start (scored w [] (Groups.ofStream stream).closed) 0
      (if stream = [] then none else some ((Groups.ofStream stream).riskSet w)) none stream.length 0
    rw [← fresh] at joined
    simpa using joined

theorem after_join_cox [Exact.Finite α] (exp_pos : ∀ x : α, 0 < Scalar.exp x)
    (cox : n.objective = .cox) (started : n.strategy.start = .ok start)
    (afterLeft : n.machine.After start xs left) (afterRight : n.machine.After start ys right)
    (joined : n.machine.join left right = .ok whole) : ∃ zs, n.machine.After start zs whole := by
  let w := Vec.entries n.origin.task.dimension start.model
  have known := (fold_from_start exp_pos cox rfl started afterLeft).2
  have known' := (fold_from_start exp_pos cox rfl started afterRight).2
  rw [Option.some.injEq] at known known'
  change n.strategy.join left right = _ at joined
  by_cases noLeft : xs = []
  · have neutral := (join_start w rfl started ys).1
    have first : left = start := by rw [known, noLeft, coxFrom, if_pos rfl]
    rw [← known', ← first, joined, Except.ok.injEq] at neutral
    exact ⟨ys, neutral ▸ afterRight⟩
  · by_cases noRight : ys = []
    · have neutral := (join_start w rfl started xs).2
      have last : right = start := by rw [known', noRight, coxFrom, if_pos rfl]
      rw [← known, ← last, joined, Except.ok.injEq] at neutral
      exact ⟨xs, neutral ▸ afterLeft⟩
    -- Two streams leave two risk sets, which are not joined.
    · rw [known, known', coxFrom_since _ rfl started, coxFrom_since _ rfl started, join_since]
        at joined
      simp [noLeft, noRight] at joined

theorem exists_stream [Exact.Finite α] (exp_pos : ∀ x : α, 0 < Scalar.exp x)
    (started : n.strategy.start = .ok start) (reached : n.machine.Reachable (some state)) :
    ∃ stream, n.machine.After start stream state := by
  refine reached.exists_stream started ?_ state rfl
  intro xs ys left right whole afterLeft afterRight joined
  by_cases cox : n.objective = .cox
  · exact after_join_cox exp_pos cox started afterLeft afterRight joined
  · have additive := Newton.additive (Objective.usesRiskSet_eq_false cox)
    exact ⟨_, additive.after_join started afterLeft afterRight joined⟩

end Newton

end Passwise
