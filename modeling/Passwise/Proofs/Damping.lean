import Passwise.Proofs.Averaging
import Passwise.Proofs.Counting
import Passwise.Proofs.Shares

set_option autoImplicit false

namespace Passwise

section Leading

variable {α σ ρ : Type} {m : Machine α σ ρ} {good : Example α → Prop} {holds : σ → Prop}

structure Machine.Leads (m : Machine α σ ρ) (good : Example α → Prop) (holds : σ → Prop) :
    Prop where
  start : ∀ state, m.start = .ok state → holds state
  absorb : ∀ e state next, good e → holds state → m.accepts e = .ok () →
    (m.absorb e).exec state = .ok next → holds next
  join : ∀ left right whole, holds left → holds right → m.join left right = .ok whole →
    holds whole

namespace Machine.Leads

theorem take (leads : m.Leads good holds) {e : Example α} (fine : good e)
    {state next : Option σ} (before : ∀ s ∈ state, holds s)
    (taken : (m.take e).exec state = .ok next) : ∀ s ∈ next, holds s := by
  have step {s : σ} (before : holds s) (taken : (m.take e).exec (some s) = .ok next) :
      ∀ s ∈ next, holds s := by
    obtain ⟨accepted, reached, absorbed, rfl⟩ := take_some_eq_ok taken
    rintro _ ⟨⟩
    exact leads.absorb e s reached fine before accepted absorbed
  cases state with
  | some s => exact step (before s rfl) taken
  | none =>
    obtain ⟨s, started, taken⟩ := take_none_eq_ok taken
    exact step (leads.start s started) taken

theorem fold (leads : m.Leads good holds) {xs : List (Example α)} (all : ∀ e ∈ xs, good e)
    {state last : Option σ} (before : ∀ s ∈ state, holds s)
    (folded : m.fold xs state = .ok last) : ∀ s ∈ last, holds s := by
  induction xs generalizing state with
  | nil =>
    cases folded
    exact before
  | cons e xs ih =>
    rw [fold_cons] at folded
    obtain ⟨next, taken, folded⟩ := bind_eq_ok.mp folded
    obtain ⟨first, others⟩ := List.forall_mem_cons.mp all
    exact ih others (leads.take first before taken) folded

theorem merge (leads : m.Leads good holds) {left right whole : Option σ}
    (before : ∀ s ∈ left, holds s) (before' : ∀ s ∈ right, holds s)
    (merged : m.merge left right = .ok whole) : ∀ s ∈ whole, holds s := by
  cases left with
  | none =>
    cases merged
    exact before'
  | some left =>
    cases right with
    | none =>
      cases merged
      exact before
    | some right =>
      obtain ⟨state, joined, merged⟩ := bind_eq_ok.mp merged
      cases merged
      rintro _ ⟨⟩
      exact leads.join left right state (before left rfl) (before' right rfl) joined

theorem run_ok (leads : m.Leads good holds) {shape : Shape} {parts : List (List (Example α))}
    (all : ∀ e ∈ parts.flatten, good e) {result : ρ}
    (done : m.run shape parts = .ok (some result)) :
    ∃ state, holds state ∧ m.result state = .ok (some result) := by
  obtain ⟨states, folded, done⟩ := bind_eq_ok.mp done
  obtain ⟨last, combined, done⟩ := bind_eq_ok.mp done
  have each : ∀ state ∈ states, ∀ s ∈ state, holds s := by
    intro state member
    obtain ⟨part, inside, fold⟩ := exists_of_mem_mapM folded member
    exact leads.fold (fun e taken => all e (List.mem_flatten.mpr ⟨part, inside, taken⟩))
      (by simp) fold
  obtain ⟨reduced, gathered, combined⟩ := bind_eq_ok.mp combined
  cases combined
  cases reduced with
  | none => cases done
  | some state =>
    have whole := Shape.holds_of_reduce (fun _ _ _ => leads.merge) each gathered
    cases state with
    | none => cases done
    | some state => exact ⟨state, whole state rfl, done⟩

end Machine.Leads

end Leading

variable {α : Type} [Exact α] {d : Nat}

def Vec.Within (bound : Fin d → α) (v : Vec α) : Prop := ∀ j, |entries d v j| ≤ bound j

-- A classifier of a dimension and a weight, whose steps shrink a model at most to zero.
structure Task.Damped (d : Nat) (weight : α) (task : Task α) : Prop where
  dimension : task.dimension = d
  classifier : task.objective = .svm ∨ task.objective = .logistic
  regularization : task.regularization = weight
  stepsize : task.stepsize * weight ≤ 1

theorem Task.stepsize_nonneg (task : Task α) : 0 ≤ task.stepsize := by
  have admissible := task.stepsize_admissible
  rw [Scalar.isAdmissible, Bool.and_eq_true] at admissible
  simpa using admissible.2

namespace Objective

open Label (classOf)

theorem abs_classOf (y : α) : |classOf y| = 1 := by
  unfold classOf
  split_ifs
  · exact abs_one
  · rw [abs_neg, abs_one]

theorem exists_slope {o : Objective} (classifier : o = .svm ∨ o = .logistic)
    (sigmoid : ∀ x : α, 0 ≤ Scalar.sigmoid x ∧ Scalar.sigmoid x ≤ 1) (w x : Fin d → α) (y : α) :
    ∃ c : α, |c| ≤ 1 ∧ o.gradientAt w x y = c • x := by
  rcases classifier with rfl | rfl
  · unfold gradientAt
    dsimp only
    split_ifs
    · exact ⟨0, by simp, (zero_smul α x).symm⟩
    · exact ⟨-classOf y, by rw [abs_neg, abs_classOf], rfl⟩
  · obtain ⟨nonneg, below⟩ := sigmoid (-classOf y * (w ⬝ᵥ x))
    refine ⟨_, ?_, rfl⟩
    rw [abs_mul, abs_neg, abs_classOf, one_mul, abs_of_nonneg nonneg]
    exact below

theorem alike_of_gradient {o : Objective} (classifier : o = .svm ∨ o = .logistic) {model g : Vec α}
    {e : Example α} (made : o.gradient model e = .ok g) : e.Alike model.length false := by
  have fits {sign : α} {f : α → Except Error (Vec α)} (signed : e.label.sign = .ok sign)
      (made : Vec.dot? model e.features >>= f = .ok g) : e.Alike model.length false := by
    obtain ⟨score, scored, -⟩ := bind_eq_ok.mp made
    refine ⟨(Vec.length_dot? scored).symm, ?_⟩
    rcases label : e.label with value | ⟨time, event⟩
    · rfl
    · rw [label] at signed
      cases signed
  rcases classifier with rfl | rfl
  · obtain ⟨sign, signed, made⟩ := bind_eq_ok.mp made
    exact fits signed made
  · obtain ⟨sign, signed, made⟩ := bind_eq_ok.mp made
    exact fits signed made

end Objective

-- The step that the bound rests on: what a damped model may gain it has lost before.
theorem abs_step_le {stepsize weight c bound w x : α} (nonneg : 0 ≤ stepsize)
    (damped : stepsize * weight ≤ 1) (positive : 0 < weight) (within : |w| ≤ bound / weight)
    (slope : |c| ≤ 1) (feature : |x| ≤ bound) :
    |w - stepsize * (c * x + weight * w)| ≤ bound / weight := by
  have kept : 0 ≤ 1 - stepsize * weight := sub_nonneg.mpr damped
  calc |w - stepsize * (c * x + weight * w)|
      = |(1 - stepsize * weight) * w - stepsize * (c * x)| := by
        congr 1
        ring
    _ ≤ |(1 - stepsize * weight) * w| + |stepsize * (c * x)| := abs_sub _ _
    _ = (1 - stepsize * weight) * |w| + stepsize * (|c| * |x|) := by
        rw [abs_mul, abs_mul, abs_mul, abs_of_nonneg kept, abs_of_nonneg nonneg]
    _ ≤ (1 - stepsize * weight) * (bound / weight) + stepsize * (1 * bound) := by gcongr
    _ = bound / weight := by
        field_simp
        ring

theorem abs_mean_le {m n bound u v : α} (left : 0 ≤ m) (right : 0 ≤ n) (some : m + n ≠ 0)
    (first : |u| ≤ bound) (second : |v| ≤ bound) : |(m + n)⁻¹ * (m * u + n * v)| ≤ bound := by
  have positive : 0 < m + n := lt_of_le_of_ne (add_nonneg left right) some.symm
  calc |(m + n)⁻¹ * (m * u + n * v)| = (m + n)⁻¹ * |m * u + n * v| := by
        rw [abs_mul, abs_of_pos (inv_pos.mpr positive)]
    _ ≤ (m + n)⁻¹ * (m * |u| + n * |v|) := by
        gcongr
        exact (abs_add_le _ _).trans_eq (by rw [abs_mul, abs_mul, abs_of_nonneg left,
          abs_of_nonneg right])
    _ ≤ (m + n)⁻¹ * (m * bound + n * bound) := by gcongr
    _ = bound := by
        field_simp

namespace Incremental

-- Starts are at zero, or at a model that such a state has had.
inductive Reached (weight : α) (bound : Fin d → α) : PassState α → Prop
  | start {i : Incremental α} {state : PassState α} (damped : i.origin.task.Damped d weight)
      (fresh : i.origin.previous = none) (started : i.machine.start = .ok state) :
      Reached weight bound state
  | resume {i : Incremental α} {s : Snapshot α} {before state : PassState α}
      (reached : Reached weight bound before) (same : s.model = before.model)
      (damped : i.origin.task.Damped d weight) (previous : i.origin.previous = some s)
      (started : i.machine.start = .ok state) : Reached weight bound state
  | take {i : Incremental α} {e : Example α} {state next : PassState α} {result : Except Error Unit}
      (reached : Reached weight bound state) (damped : i.origin.task.Damped d weight)
      (within : e.features.Within bound)
      (taken : (i.machine.take e).run (some state) = (result, some next)) :
      Reached weight bound next
  | join {i : Incremental α} {left right whole : PassState α} (reached : Reached weight bound left)
      (reached' : Reached weight bound right) (joined : i.machine.join left right = .ok whole) :
      Reached weight bound whole

structure Bounded (weight : α) (bound : Fin d → α) (state : PassState α) : Prop where
  damped : state.task.Damped d weight
  size : state.model.length = d
  rows : 0 ≤ state.rows
  within : state.model.Within fun j => bound j / weight

variable {i : Incremental α} {e : Example α} {state next left right whole : PassState α}
  {result : Except Error Unit} {weight : α} {bound : Fin d → α}

theorem start_eq (started : i.machine.start = .ok state) :
    state.task = i.origin.task ∧ state.rows = 0 ∧
      (i.origin.previous = none → state.model = Vec.zeros i.origin.task.dimension) ∧
      ∀ s ∈ i.origin.previous, state.model = s.model ∧
        i.origin.task.dimension = s.task.dimension := by
  obtain ⟨first, begun, started⟩ := bind_eq_ok.mp started
  cases started
  change i.origin.start = .ok first at begun
  unfold Origin.start at begun
  cases known : i.origin.previous with
  | none =>
    rw [known] at begun
    cases begun
    exact ⟨rfl, rfl, fun _ => rfl, by simp⟩
  | some s =>
    rw [known] at begun
    dsimp only at begun
    split_ifs at begun with alike
    cases begun
    exact ⟨rfl, rfl, nofun, by rintro _ ⟨⟩; exact ⟨rfl, alike.1⟩⟩

theorem run_step (ran : (i.step e).run state = (result, next)) :
    next.task = state.task ∧ next.rows = state.rows ∧
      (next.model = state.model ∨ moved i.objective state.task state.model e = .ok next.model) := by
  unfold step at ran
  rw [Update.run_bind_ok (Update.run_get _)] at ran
  rcases moves : moved i.objective state.task state.model e with cause | v
  · rw [moves, Update.run_bind_error (Update.run_ofExcept _ _)] at ran
    cases ran
    exact ⟨rfl, rfl, .inl rfl⟩
  rw [moves, Update.run_bind_ok (Update.run_ofExcept _ _),
    Update.run_bind_ok (Update.run_modify _ _)] at ran
  rcases lost : i.objective.loss v e with cause | loss
  · rw [lost, Update.run_bind_error (Update.run_ofExcept _ _)] at ran
    cases ran
    exact ⟨rfl, rfl, .inr rfl⟩
  · rw [lost, Update.run_bind_ok (Update.run_ofExcept _ _)] at ran
    cases ran
    exact ⟨rfl, rfl, .inr rfl⟩

theorem run_take (taken : (i.machine.take e).run (some state) = (result, some next)) :
    next.task = state.task ∧ state.rows ≤ next.rows ∧
      (next.model = state.model ∨ moved i.objective state.task state.model e = .ok next.model) := by
  rcases accepted : i.machine.accepts e with cause | _
  · rw [Machine.run_take_refused accepted] at taken
    cases taken
    exact ⟨rfl, le_rfl, .inl rfl⟩
  rw [Machine.run_take_some accepted] at taken
  rcases ran : (i.step e).run state with ⟨cause | _, reached⟩
  · obtain ⟨task, rows, model⟩ := run_step ran
    have absorbed : (i.machine.absorb e).run state = (.error cause, reached) :=
      Update.run_bind_error ran _
    rw [absorbed] at taken
    cases taken
    exact ⟨task, rows.ge, model⟩
  · obtain ⟨task, rows, model⟩ := run_step ran
    have absorbed : (i.machine.absorb e).run state =
        (.ok (), { reached with rows := reached.rows + 1 }) := Update.run_bind_ok ran _
    rw [absorbed] at taken
    cases taken
    exact ⟨task, by dsimp only; omega, model⟩

theorem moved_eq {o : Objective} (classifier : o = .svm ∨ o = .logistic) (task : Task α)
    (w x : Fin d → α) (y : α) : moved o task (Vec.of w) ⟨Vec.of x, .plain y⟩ =
      .ok (Vec.of (w - task.stepsize • (o.gradientAt w x y + task.regularization • w))) := by
  have separable : o.usesRiskSet = false := by rcases classifier with rfl | rfl <;> rfl
  have penalty : o.penalty = .l2 := by rcases classifier with rfl | rfl <;> rfl
  rw [moved, Objective.gradient_of separable, ok_bind, penalty]
  simp only [Penalty.smoothGradient, Penalty.shrink, Exact.factor_eq, ok_bind, pure_ok,
    Vec.scale_of, Vec.add?_of, Vec.combine_of]
  rfl

variable (sigmoid : ∀ x : α, 0 ≤ Scalar.sigmoid x ∧ Scalar.sigmoid x ≤ 1) (positive : 0 < weight)

include sigmoid positive in
theorem within_of_moved {o : Objective} {task : Task α} {model v : Vec α}
    (classifier : o = .svm ∨ o = .logistic) (damped : task.Damped d weight)
    (size : model.length = d) (before : model.Within fun j => bound j / weight)
    (within : e.features.Within bound) (moves : moved o task model e = .ok v) :
    v.length = d ∧ v.Within fun j => bound j / weight := by
  obtain ⟨g, made, -⟩ := bind_eq_ok.mp moves
  have alike := Objective.alike_of_gradient classifier made
  rw [size] at alike
  obtain ⟨w, rfl⟩ := Vec.exists_of size
  obtain ⟨features, label⟩ := e
  obtain ⟨x, rfl⟩ := Vec.exists_of alike.1
  obtain ⟨y, rfl⟩ : ∃ y, label = .plain y := ⟨_, Label.eq_plain alike.2⟩
  rw [moved_eq classifier, Except.ok.injEq] at moves
  subst moves
  refine ⟨Vec.length_of _, fun j => ?_⟩
  obtain ⟨c, slope, same⟩ := Objective.exists_slope classifier sigmoid w x y
  have own := before j
  have feature := within j
  rw [Vec.entries_of] at own feature ⊢
  rw [same, damped.regularization]
  exact abs_step_le task.stepsize_nonneg damped.stepsize positive own slope feature

include sigmoid positive in
theorem Bounded.take (before : Bounded weight bound state) (damped : i.origin.task.Damped d weight)
    (within : e.features.Within bound)
    (taken : (i.machine.take e).run (some state) = (result, some next)) :
    Bounded weight bound next := by
  obtain ⟨task, rows, model⟩ := run_take taken
  have counted : 0 ≤ next.rows := before.rows.trans rows
  rcases model with same | moves
  · exact ⟨task ▸ before.damped, same ▸ before.size, counted, same ▸ before.within⟩
  · obtain ⟨size, inside⟩ := within_of_moved sigmoid positive damped.classifier before.damped
      before.size before.within within moves
    exact ⟨task ▸ before.damped, size, counted, inside⟩

theorem Bounded.join (before : Bounded weight bound left) (before' : Bounded weight bound right)
    (joined : i.machine.join left right = .ok whole) : Bounded weight bound whole := by
  have same : left.task.dimension = right.task.dimension :=
    before.damped.dimension.trans before'.damped.dimension.symm
  change i.strategy.join left right = .ok whole at joined
  rw [Strategy.join, if_pos same] at joined
  obtain ⟨⟨model, totals⟩, made, joined⟩ := bind_eq_ok.mp joined
  cases joined
  obtain ⟨mean, means, made⟩ := bind_eq_ok.mp made
  cases made
  rw [meanModel_of before.size before'.size, Except.ok.injEq] at means
  subst means
  have rows := before.rows
  have rows' := before'.rows
  refine ⟨before.damped, ?_, add_nonneg rows rows', fun j => ?_⟩
  · dsimp only
    split_ifs
    · exact before.size
    · exact Vec.length_of _
  · dsimp only
    split_ifs with nobody
    · exact before.within j
    · rw [Vec.entries_of]
      have some : ((left.rows : Int) : α) + right.rows ≠ 0 := by exact_mod_cast nobody
      push_cast
      exact abs_mean_le (by exact_mod_cast rows) (by exact_mod_cast rows') some (before.within j)
        (before'.within j)

include sigmoid positive in
theorem Reached.bounded (nonneg : ∀ j, 0 ≤ bound j) (reached : Reached weight bound state) :
    Bounded weight bound state := by
  induction reached with
  | start damped fresh started =>
    obtain ⟨task, rows, zero, -⟩ := start_eq started
    have model := zero fresh
    rw [damped.dimension, Vec.zeros_eq] at model
    refine ⟨task ▸ damped, model ▸ Vec.length_of _, rows.ge, fun j => ?_⟩
    rw [model, Vec.entries_of, Pi.zero_apply, abs_zero]
    exact div_nonneg (nonneg j) positive.le
  | resume _ same damped previous started ih =>
    obtain ⟨task, rows, -, resumed⟩ := start_eq started
    have model := (resumed _ previous).1.trans same
    exact ⟨task ▸ damped, model ▸ ih.size, rows.ge, model ▸ ih.within⟩
  | take _ damped within taken ih => exact ih.take sigmoid positive damped within taken
  | join _ _ joined ih ih' => exact ih.join ih' joined

end Incremental

end Passwise
