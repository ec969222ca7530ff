import Passwise.Proofs.Reals
import Passwise.Proofs.Uniform

set_option autoImplicit false

namespace Passwise

open Matrix

variable {α : Type} [Exact α] {d : Nat}

def Subgradient (f : (Fin d → α) → α) (w g : Fin d → α) : Prop :=
  ∀ w', f w + g ⬝ᵥ (w' - w) ≤ f w'

namespace Subgradient

variable {f f' : (Fin d → α) → α} {w g g' : Fin d → α}

theorem zero : Subgradient (fun _ => 0) w (0 : Fin d → α) := fun w' => by simp

theorem add (first : Subgradient f w g) (second : Subgradient f' w g') :
    Subgradient (fun v => f v + f' v) w (g + g') := by
  intro w'
  have below := add_le_add (first w') (second w')
  rw [add_dotProduct]
  linarith

theorem sum {β : Type} {xs : List β} {f : β → (Fin d → α) → α} {g : β → Fin d → α}
    (each : ∀ x ∈ xs, Subgradient (f x) w (g x)) :
    Subgradient (fun v => (xs.map fun x => f x v).sum) w (xs.map g).sum := by
  induction xs with
  | nil => exact zero
  | cons x xs ih =>
    simp only [List.map_cons, List.sum_cons]
    exact (each x (by simp)).add (ih fun y member => each y (by simp [member]))

theorem le_of_zero (flat : Subgradient f w 0) (w' : Fin d → α) : f w ≤ f w' := by
  simpa using flat w'

end Subgradient

def Objective.Sloped (α : Type) [Exact α] (o : Objective) : Prop :=
  o = .logistic → ∀ a b : α,
    Scalar.softplus a + Scalar.sigmoid a * (b - a) ≤ Scalar.softplus b

namespace Objective

open Label (classOf)

theorem subgradient_lossAt (o : Objective) (sloped : o.Sloped α) (w x : Fin d → α) (y : α) :
    Subgradient (fun v => o.lossAt v x y) w (o.gradientAt w x y) := by
  intro w'
  have move : x ⬝ᵥ (w' - w) = w' ⬝ᵥ x - w ⬝ᵥ x := by
    rw [dotProduct_sub, dotProduct_comm x, dotProduct_comm x]
  cases o with
  | svm =>
    simp only [lossAt, gradientAt]
    -- A margin of one or more leaves no loss, so that no slope is needed there.
    split_ifs with kept
    · rw [max_eq_left (by linarith), zero_dotProduct, add_zero]
      exact le_max_left _ _
    · rw [max_eq_right (by linarith), smul_dotProduct, move, smul_eq_mul]
      refine le_trans (le_of_eq ?_) (le_max_right _ _)
      ring
  | logistic =>
    have tangent := sloped rfl (-classOf y * (w ⬝ᵥ x)) (-classOf y * (w' ⬝ᵥ x))
    simp only [lossAt, gradientAt, smul_dotProduct, move, smul_eq_mul]
    linarith
  | ridge | lasso =>
    simp only [lossAt, gradientAt, smul_dotProduct, move, smul_eq_mul]
    nlinarith [sq_nonneg (w' ⬝ᵥ x - w ⬝ᵥ x)]
  | cox => simp [lossAt, gradientAt]

theorem sloped_real (o : Objective) : o.Sloped ℝ := by
  intro _ a b
  change Real.log (1 + Real.exp a) + 1 / (1 + Real.exp (-a)) * (b - a) ≤ Real.log (1 + Real.exp b)
  have positive : 0 < 1 + Real.exp a := by positivity
  have share : 1 / (1 + Real.exp (-a)) = Real.exp a / (1 + Real.exp a) := by
    rw [Real.exp_neg]
    field_simp
    ring
  have rest : 1 / (1 + Real.exp a) + Real.exp a / (1 + Real.exp a) = 1 := by
    field_simp
  -- The exponential of a mean is at most the mean of the exponentials, here of `0` and `b - a`.
  have convex := convexOn_exp.2 (Set.mem_univ 0) (Set.mem_univ (b - a))
    (by positivity : 0 ≤ 1 / (1 + Real.exp a)) (by positivity) rest
  have scaled : (1 + Real.exp a) * Real.exp (1 / (1 + Real.exp (-a)) * (b - a)) ≤
      1 + Real.exp b := by
    simp only [smul_eq_mul, mul_zero, zero_add, Real.exp_zero, mul_one, ← share] at convex
    calc (1 + Real.exp a) * Real.exp (1 / (1 + Real.exp (-a)) * (b - a))
        ≤ (1 + Real.exp a) *
            (1 / (1 + Real.exp a) + 1 / (1 + Real.exp (-a)) * Real.exp (b - a)) := by gcongr
      _ = 1 + Real.exp b := by
        rw [share, Real.exp_sub]
        field_simp
  calc Real.log (1 + Real.exp a) + 1 / (1 + Real.exp (-a)) * (b - a)
      = Real.log ((1 + Real.exp a) * Real.exp (1 / (1 + Real.exp (-a)) * (b - a))) := by
        rw [Real.log_mul positive.ne' (Real.exp_ne_zero _), Real.log_exp]
    _ ≤ Real.log (1 + Real.exp b) := Real.log_le_log (by positivity) scaled

end Objective

namespace Penalty

def lossAt (p : Penalty) (weight : α) (w : Fin d → α) : α :=
  match p with
  | l1 => weight * ∑ i, |w i|
  | l2 => Scalar.half * weight * (w ⬝ᵥ w)

def gradientAt (p : Penalty) (weight : α) (w : Fin d → α) : Fin d → α :=
  match p with
  | l1 => fun i => weight * Scalar.sign (w i)
  | l2 => weight • w

theorem loss_of (p : Penalty) (weight : α) (w : Fin d → α) :
    p.loss weight (Vec.of w) = .ok (p.lossAt weight w) := by
  cases p with
  | l1 => simp [loss, lossAt, Vec.sumAbs, Vec.of, List.sum_ofFn]
  | l2 => simp [loss, lossAt]

theorem gradient_of (p : Penalty) (weight : α) (w : Fin d → α) :
    p.gradient weight (Vec.of w) = .ok (Vec.of (p.gradientAt weight w)) := by
  cases p with
  | l1 => simp [gradient, gradientAt, Vec.map_of]
  | l2 => simp [gradient, gradientAt]

theorem abs_add_sign_mul_le (x y : α) : |x| + Scalar.sign x * (y - x) ≤ |y| := by
  have above := le_abs_self y
  have below := neg_abs_le y
  rcases lt_trichotomy x 0 with negative | rfl | positive
  · rw [Scalar.sign, if_neg negative.not_gt, if_pos negative, abs_of_neg negative]
    linarith
  · simp [Scalar.sign]
  · rw [Scalar.sign, if_pos positive, abs_of_pos positive]
    linarith

theorem subgradient_lossAt (p : Penalty) {weight : α} (nonneg : 0 ≤ weight) (w : Fin d → α) :
    Subgradient (p.lossAt weight) w (p.gradientAt weight w) := by
  intro w'
  cases p with
  | l1 =>
    simp only [lossAt, gradientAt, dotProduct, Pi.sub_apply, mul_assoc, ← Finset.mul_sum,
      ← mul_add, ← Finset.sum_add_distrib]
    refine mul_le_mul_of_nonneg_left (Finset.sum_le_sum fun i _ => ?_) nonneg
    exact abs_add_sign_mul_le (w i) (w' i)
  | l2 =>
    have square : 0 ≤ (w' - w) ⬝ᵥ (w' - w) := dotProduct_self_nonneg _
    have expand : w' ⬝ᵥ w' = w ⬝ᵥ w + 2 * (w ⬝ᵥ (w' - w)) + (w' - w) ⬝ᵥ (w' - w) := by
      simp only [dotProduct_sub, sub_dotProduct, dotProduct_comm w' w]
      ring
    simp only [lossAt, gradientAt, smul_dotProduct, smul_eq_mul, expand, Exact.half_eq]
    nlinarith [mul_nonneg nonneg square]

end Penalty

namespace Objective

variable (o : Objective) (weight : α) (examples : List (Example α)) (w : Fin d → α)

def lossOver : α :=
  (examples.map fun e => o.lossAt w (Vec.entries d e.features) e.label.number).sum +
    o.penalty.lossAt weight w

def gradientOver : Fin d → α :=
  (examples.map fun e => o.gradientAt w (Vec.entries d e.features) e.label.number).sum +
    o.penalty.gradientAt weight w

variable {weight} in
theorem subgradient_lossOver (sloped : o.Sloped α) (nonneg : 0 ≤ weight) :
    Subgradient (o.lossOver weight examples) w (o.gradientOver weight examples w) :=
  (Subgradient.sum fun e _ => o.subgradient_lossAt sloped w (Vec.entries d e.features) _).add
    (o.penalty.subgradient_lossAt nonneg w)

theorem sum_share :
    (examples.map (o.share w)).sum.1 =
      (examples.map fun e => o.lossAt w (Vec.entries d e.features) e.label.number).sum ∧
    (examples.map (o.share w)).sum.2.1 =
      (examples.map fun e => o.gradientAt w (Vec.entries d e.features) e.label.number).sum := by
  induction examples with
  | nil => exact ⟨rfl, rfl⟩
  | cons e examples ih =>
    simp only [List.map_cons, List.sum_cons, Prod.fst_add, Prod.snd_add, ih]
    exact ⟨rfl, rfl⟩

end Objective

namespace Conjugate

variable {c c' : Conjugate α}

def totals (c : Conjugate α) (examples : List (Example α)) : Except Error (Vec α × α) := do
  let start ← c.strategy.start
  c.sums ((← c.machine.fold examples none).getD start)

variable [Exact.Finite α] {w w' : Fin d → α} {start start' : PassState α}
  {examples : List (Example α)}

theorem sums_share {w : Fin c.origin.task.dimension → α} (task : start.task = c.origin.task)
    (model : start.model = Vec.of w) (examples : List (Example α)) :
    c.sums (Share.state start false (examples.map (c.objective.share w)).sum) = .ok
      (Vec.of (c.objective.gradientOver c.origin.task.regularization examples w),
        c.objective.lossOver c.origin.task.regularization examples w) := by
  obtain ⟨loss, gradient⟩ := c.objective.sum_share examples w
  rw [sums]
  simp only [Share.state, Share.totals, model, task, Penalty.gradient_of, Penalty.loss_of,
    ok_bind, sumParts, Vec.add?_of, requireFinite_ok, requireFiniteVec_ok, loss, gradient]
  rfl

theorem totals_eq (size : c.origin.task.dimension = d) (started : c.strategy.start = .ok start)
    (model : start.model = Vec.of w) (alike : ∀ e ∈ examples, e.Alike d false) :
    c.totals examples = .ok
      (Vec.of (c.objective.gradientOver c.origin.task.regularization examples w),
        c.objective.lossOver c.origin.task.regularization examples w) := by
  subst size
  have fits : start.model.length = c.origin.task.dimension := by rw [model, Vec.length_of]
  have entries : Vec.entries c.origin.task.dimension start.model = w := by
    rw [model, Vec.entries_of]
  obtain ⟨last, folded, ended⟩ : ∃ last, c.machine.fold examples none = .ok last ∧
      last.getD start = Share.state start false (examples.map (c.objective.share w)).sum := by
    refine ⟨_, (c.additive.summing started fits).fold_none alike, ?_⟩
    rw [← entries]
    exact c.additive.reached_getD started _ examples
  obtain ⟨task, -⟩ := Strategy.start_fresh started
  rw [totals, started, ok_bind, folded, ok_bind, ended]
  exact sums_share task model examples

omit [Exact.Finite α] in
theorem alike_of_totals {sums : Vec α × α} (collected : c.totals examples = .ok sums) :
    ∀ e ∈ examples, e.Alike c.origin.task.dimension false := by
  obtain ⟨start, -, collected⟩ := bind_eq_ok.mp collected
  obtain ⟨last, folded, -⟩ := bind_eq_ok.mp collected
  exact c.additive.alike_of_fold folded

omit [Exact.Finite α] in
theorem finish_eq_ok {state : PassState α} {found : Snapshot α}
    (done : c.finish state = .ok found) :
    ∃ g, c.sums state = .ok (g, found.loss) ∧ found.memory.previousGradient = some g ∧
      found.model = state.model := by
  obtain ⟨⟨g, loss⟩, summed, done⟩ := bind_eq_ok.mp done
  obtain ⟨direction, -, done⟩ := bind_eq_ok.mp done
  obtain ⟨iteration, -, done⟩ := bind_eq_ok.mp done
  cases done
  exact ⟨g, summed, rfl, rfl⟩

omit [Exact.Finite α] in
theorem totals_of_run (started : c.strategy.start = .ok start)
    (fits : start.model.length = c.origin.task.dimension) {shape : Shape}
    {parts : List (List (Example α))} (split : parts.flatten.Perm examples) {found : Snapshot α}
    (done : c.machine.run shape parts = .ok (some found)) :
    ∃ g, c.totals examples = .ok (g, found.loss) ∧ found.memory.previousGradient = some g ∧
      found.model = start.model := by
  have all : ∀ e ∈ examples, e.Alike c.origin.task.dimension false := fun e member =>
    c.additive.alike_of_run done e (split.mem_iff.mpr member)
  have summing := c.additive.summing started fits
  have folded := summing.fold_none all
  change c.machine.fold examples none = _ at folded
  obtain ⟨-, finished⟩ := Strategy.result_eq_some (summing.conclude_of_run all split done)
  obtain ⟨g, summed, previous, same⟩ := finish_eq_ok finished
  refine ⟨g, ?_, previous, same⟩
  rw [totals, started, ok_bind, folded, ok_bind, c.additive.reached_getD started]
  exact summed

theorem loss_ge_tangent (sloped : c.objective.Sloped α) (size : c.origin.task.dimension = d)
    (same : c'.origin.task = c.origin.task) (started : c.strategy.start = .ok start)
    (started' : c'.strategy.start = .ok start') (model : start.model = Vec.of w)
    (model' : start'.model = Vec.of w') (examples : List (Example α)) :
    ((∀ e ∈ examples, e.Alike d false) → ∃ sums sums',
      c.totals examples = .ok sums ∧ c'.totals examples = .ok sums') ∧
    (∀ v loss v' loss', c.totals examples = .ok (v, loss) → c'.totals examples = .ok (v', loss') →
      ∃ g : Fin d → α, v = Vec.of g ∧ loss + g ⬝ᵥ (w' - w) ≤ loss' ∧ (g = 0 → loss ≤ loss')) ∧
    ∀ shape parts found, parts.flatten.Perm examples →
      c.machine.run shape parts = .ok (some found) →
      ∃ v, c.totals examples = .ok (v, found.loss) ∧ found.memory.previousGradient = some v ∧
        found.model = Vec.of w := by
  have size' : c'.origin.task.dimension = d := by rw [same, size]
  have nonneg := c.origin.task.regularization_nonneg
  refine ⟨fun alike => ?_, fun v loss v' loss' collected collected' => ?_, ?_⟩
  · exact ⟨_, _, totals_eq size started model alike, totals_eq size' started' model' alike⟩
  · have alike := size ▸ alike_of_totals collected
    have subgradient := c.objective.subgradient_lossOver examples w sloped nonneg
    have objective : c'.objective = c.objective := congrArg Task.objective same
    rw [totals_eq size started model alike] at collected
    rw [totals_eq size' started' model' alike, objective, same] at collected'
    cases collected
    cases collected'
    refine ⟨_, rfl, subgradient w', fun flat => ?_⟩
    rw [flat] at subgradient
    exact subgradient.le_of_zero w'
  · intro shape parts found split done
    have fits : start.model.length = c.origin.task.dimension := by rw [model, Vec.length_of, size]
    rw [← model]
    exact totals_of_run started fits split done

omit [Exact.Finite α] in
theorem start_resumed {s : Snapshot α} (previous : c.origin.previous = some s)
    (same : c.origin.task.dimension = s.task.dimension ∧
      c.origin.task.objective = s.task.objective) :
    c.strategy.start = .ok
      ⟨c.origin.task, s.model, s.memory,
        (0 : Share α c.origin.task.dimension).totals false, 0⟩ := by
  rw [Strategy.start_resumed (s := c.strategy) previous same, c.additive.totals]
  rfl

theorem loss_ge_tangent_logistic :
    let at_ (x : ℝ) : Snapshot ℝ := ⟨.unit .logistic, [x], 0, 0, .null, .fresh, none, none, none⟩
    let c : Conjugate ℝ := ⟨⟨.unit .logistic, some (at_ 2)⟩, .polakRibiere, rfl⟩
    let c' : Conjugate ℝ := ⟨⟨.unit .logistic, some (at_ 5)⟩, .polakRibiere, rfl⟩
    let examples : List (Example ℝ) := [⟨[1], .plain 1⟩, ⟨[3], .plain 0⟩]
    ∃ (g : Fin 1 → ℝ) (loss : ℝ) (v' : Vec ℝ) (loss' : ℝ),
      c.totals examples = .ok (Vec.of g, loss) ∧
      c'.totals examples = .ok (v', loss') ∧ loss + g 0 * 3 ≤ loss' := by
  intro at_ c c' examples
  have started := start_resumed (c := c) rfl ⟨rfl, rfl⟩
  have started' : c'.strategy.start = .ok
      ⟨.unit .logistic, [5], .fresh, (0 : Share ℝ 1).totals false, 0⟩ :=
    start_resumed (c := c') rfl ⟨rfl, rfl⟩
  have model : [(2 : ℝ)] = Vec.of fun _ : Fin 1 => 2 := rfl
  have model' : [(5 : ℝ)] = Vec.of fun _ : Fin 1 => 5 := rfl
  have size : c.origin.task.dimension = 1 := rfl
  have same : c'.origin.task = c.origin.task := rfl
  have alike : ∀ e ∈ examples, e.Alike 1 false := by
    simp [examples, Example.Alike, Example.dimension, Label.isSurvival]
  obtain ⟨exist, tangent, -⟩ := loss_ge_tangent (Objective.sloped_real c.objective) size same
    started started' model model' examples
  obtain ⟨⟨v, loss⟩, ⟨v', loss'⟩, collected, collected'⟩ := exist alike
  obtain ⟨g, rfl, below, -⟩ := tangent v loss v' loss' collected collected'
  refine ⟨g, loss, v', loss', collected, collected', ?_⟩
  have move : g ⬝ᵥ ((fun _ => 5) - fun _ => 2) = g 0 * 3 := by
    norm_num [dotProduct]
  rwa [move] at below

end Conjugate

end Passwise
