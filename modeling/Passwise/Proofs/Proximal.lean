import Passwise.Proofs.Quadratic
import Passwise.Proofs.Shrinking
import Passwise.Incremental

set_option autoImplicit false

namespace Passwise

open Matrix

variable {α : Type} [Exact α] {d : Nat}

theorem sq_dotProduct_le (v x : Fin d → α) : (v ⬝ᵥ x) ^ 2 ≤ (x ⬝ᵥ x) * (v ⬝ᵥ v) := by
  have bound := Finset.sum_mul_sq_le_sq_mul_sq Finset.univ v x
  simp only [pow_two (v _), pow_two (x _)] at bound
  rwa [mul_comm] at bound

theorem dotProduct_outer_le (x v : Fin d → α) :
    v ⬝ᵥ vecMulVec x x *ᵥ v ≤ (x ⬝ᵥ x) * (v ⬝ᵥ v) := by
  have form : v ⬝ᵥ vecMulVec x x *ᵥ v = (v ⬝ᵥ x) ^ 2 := by
    rw [vecMulVec_mulVec, op_smul_eq_smul, dotProduct_smul, smul_eq_mul, dotProduct_comm x v,
      pow_two]
  rw [form]
  exact sq_dotProduct_le v x

namespace Quadratic

variable {f : (Fin d → α) → α} {g : (Fin d → α) → Fin d → α} {m : Matrix (Fin d) (Fin d) α}
  {c stepsize : α}

theorem gradient_step_le (quadratic : Quadratic f g m)
    (bent : ∀ v, v ⬝ᵥ m *ᵥ v ≤ c * (v ⬝ᵥ v)) (nonneg : 0 ≤ stepsize) (short : stepsize * c ≤ 2)
    (w : Fin d → α) : f (w - stepsize • g w) ≤ f w := by
  have square := dotProduct_self_nonneg (g w)
  calc f (w - stepsize • g w)
      = f w - stepsize * (g w ⬝ᵥ g w) + stepsize ^ 2 * (g w ⬝ᵥ m *ᵥ g w) / 2 := by
        rw [sub_eq_add_neg, ← smul_neg, quadratic.value]
        simp only [mulVec_smul, mulVec_neg, dotProduct_smul, smul_dotProduct, dotProduct_neg,
          neg_dotProduct, smul_eq_mul]
        ring
    _ ≤ f w - stepsize * (g w ⬝ᵥ g w) + stepsize ^ 2 * (c * (g w ⬝ᵥ g w)) / 2 := by
        gcongr
        exact bent (g w)
    _ = f w - stepsize * (2 - stepsize * c) / 2 * (g w ⬝ᵥ g w) := by ring
    _ ≤ f w := by
        have gain : 0 ≤ stepsize * (2 - stepsize * c) / 2 * (g w ⬝ᵥ g w) := by
          have room : 0 ≤ 2 - stepsize * c := sub_nonneg.mpr short
          positivity
        linarith

theorem shrunk_step_le (quadratic : Quadratic f g m)
    (bent : ∀ v, v ⬝ᵥ m *ᵥ v ≤ c * (v ⬝ᵥ v)) (positive : 0 < stepsize)
    (short : stepsize * c ≤ 1) {weight : α} (nonneg : 0 ≤ weight) (w : Fin d → α) :
    let p := fun i => shrunk (stepsize * weight) ((w - stepsize • g w) i)
    f p + weight * ∑ i, |p i| ≤
      f w + weight * ∑ i, |w i| - (p - w) ⬝ᵥ (p - w) / (2 * stepsize) := by
  intro p
  have value := quadratic.value w (p - w)
  rw [add_sub_cancel] at value
  -- The curvature takes back at most half of what the step gains.
  have curve : stepsize * ((p - w) ⬝ᵥ m *ᵥ (p - w)) ≤ (p - w) ⬝ᵥ (p - w) := by
    have square := dotProduct_self_nonneg (p - w)
    calc stepsize * ((p - w) ⬝ᵥ m *ᵥ (p - w))
        ≤ stepsize * (c * ((p - w) ⬝ᵥ (p - w))) := by
          gcongr
          exact bent (p - w)
      _ = stepsize * c * ((p - w) ⬝ᵥ (p - w)) := (mul_assoc _ _ _).symm
      _ ≤ (p - w) ⬝ᵥ (p - w) := mul_le_of_le_one_left square short
  have toward : (p - w) ⬝ᵥ (p - w) + stepsize * (g w ⬝ᵥ (p - w)) ≤
      stepsize * weight * (∑ i, |w i| - ∑ i, |p i|) := by
    have shrinking := dotProduct_shrunk_le (mul_nonneg positive.le nonneg)
      (w - stepsize • g w) w
    have expand : (w - stepsize • g w - p) ⬝ᵥ (w - p) =
        (p - w) ⬝ᵥ (p - w) + stepsize * (g w ⬝ᵥ (p - w)) := by
      simp only [sub_dotProduct, dotProduct_sub, smul_dotProduct, smul_eq_mul]
      ring
    exact expand ▸ shrinking
  have scaled : stepsize * (f p + weight * ∑ i, |p i|) ≤
      stepsize * (f w + weight * ∑ i, |w i|) - (p - w) ⬝ᵥ (p - w) / 2 := by
    rw [value]
    linarith
  have back : stepsize * (f w + weight * ∑ i, |w i| - (p - w) ⬝ᵥ (p - w) / (2 * stepsize)) =
      stepsize * (f w + weight * ∑ i, |w i|) - (p - w) ⬝ᵥ (p - w) / 2 := by
    field_simp
  exact le_of_mul_le_mul_left (scaled.trans_eq back.symm) positive

end Quadratic

namespace Penalty

def smoothAt (p : Penalty) (weight : α) (w : Fin d → α) : Fin d → α :=
  match p with
  | l1 => 0
  | l2 => weight • w

def shrunkAt (p : Penalty) (stepsize weight : α) (w : Fin d → α) : Fin d → α :=
  match p with
  | l1 => fun i => shrunk (stepsize * weight) (w i)
  | l2 => w

theorem smoothGradient_eq (p : Penalty) (weight : α) (w : Fin d → α) :
    p.smoothGradient weight (Vec.of w) = .ok (Vec.of (p.smoothAt weight w)) := by
  cases p with
  | l1 => simp [smoothGradient, smoothAt]
  | l2 => simp [smoothGradient, smoothAt]

theorem shrink_eq (p : Penalty) (stepsize weight : α) (w : Fin d → α) :
    p.shrink stepsize weight (Vec.of w) = .ok (Vec.of (p.shrunkAt stepsize weight w)) := by
  cases p with
  | l1 => simp [shrink, shrunkAt, softThreshold_of]
  | l2 => rfl

end Penalty

namespace Incremental

theorem moved_at {o : Objective} (separable : o.usesRiskSet = false) (task : Task α)
    (w x : Fin d → α) (y : α) : moved o task (Vec.of w) ⟨Vec.of x, .plain y⟩ =
      .ok (Vec.of (o.penalty.shrunkAt task.stepsize task.regularization
        (w - task.stepsize •
          (o.gradientAt w x y + o.penalty.smoothAt task.regularization w)))) := by
  rw [moved, Objective.gradient_of separable, ok_bind, Penalty.smoothGradient_eq, ok_bind,
    Vec.add?_of, ok_bind, Exact.factor_eq, ok_bind, Vec.scale_of, Vec.combine_of, ok_bind]
  exact o.penalty.shrink_eq _ _ _

theorem exec_step_at {i : Incremental α} {state : PassState α} {w : Fin d → α}
    (model : state.model = Vec.of w) (x : Fin d → α) (y : α) :
    ∃ next, (i.step ⟨Vec.of x, .plain y⟩).exec state = .ok next ∧
      next.model = Vec.of (i.objective.penalty.shrunkAt state.task.stepsize
        state.task.regularization (w - state.task.stepsize • (i.objective.gradientAt w x y +
          i.objective.penalty.smoothAt state.task.regularization w))) := by
  simp only [step, Update.exec_get_bind, Update.exec_ofExcept_bind, model,
    moved_at (o := i.objective) i.separable, ok_bind, Update.exec_bind_unit, Update.exec_modify,
    Objective.loss_of (o := i.objective) i.separable]
  exact ⟨_, rfl, rfl⟩

variable {i : Incremental α} {e : Example α} {state : PassState α} {y : α}

theorem never_raises_loss (label : e.label = .plain y) (size : state.model.length = e.dimension)
    (positive : 0 < state.task.stepsize) :
    let stepsize := state.task.stepsize
    let weight := state.task.regularization
    let square (w : Vec α) := 1 / 2 * (y - Vec.dot w e.features) ^ 2
    let ridge (w : Vec α) := square w + weight / 2 * Vec.dot w w
    let lasso (w : Vec α) := square w + weight * Vec.sumAbs w
    ∃ next, (i.step e).exec state = .ok next ∧ next.model.length = e.dimension ∧
      (i.objective = .ridge → stepsize * (Vec.dot e.features e.features + weight) ≤ 2 →
        ridge next.model ≤ ridge state.model) ∧
      (i.objective = .lasso → stepsize * Vec.dot e.features e.features ≤ 1 →
        lasso next.model ≤ lasso state.model -
          Vec.dot (Vec.sub next.model state.model) (Vec.sub next.model state.model) /
            (2 * stepsize)) := by
  obtain ⟨features, label'⟩ := e
  obtain rfl : label' = .plain y := label
  generalize known : features.length = d
  obtain ⟨x, rfl⟩ : ∃ x : Fin d → α, features = Vec.of x := ⟨_, (Vec.of_entries known).symm⟩
  obtain ⟨w, model⟩ : ∃ w : Fin d → α, state.model = Vec.of w :=
    ⟨_, (Vec.of_entries (size.trans known)).symm⟩
  have nonneg := state.task.regularization_nonneg
  intro stepsize weight square ridge lasso
  obtain ⟨next, stepped, moved⟩ := exec_step_at (i := i) model x y
  refine ⟨next, stepped, ?_, fun objective short => ?_, fun objective short => ?_⟩
  · rw [moved, Vec.length_of, Example.dimension, Vec.length_of]
  · have loss (v : Fin d → α) : ridge (Vec.of v) =
        Objective.ridge.lossAt v x y + Penalty.l2.lossAt weight v := by
      simp only [ridge, square, Vec.dot_of, Objective.lossAt, Penalty.lossAt, Exact.half_eq]
      ring
    have bent (v : Fin d → α) : v ⬝ᵥ (vecMulVec x x + weight • 1) *ᵥ v ≤
        (x ⬝ᵥ x + weight) * (v ⬝ᵥ v) := by
      rw [add_mulVec, dotProduct_add, smul_mulVec, one_mulVec, dotProduct_smul, smul_eq_mul,
        add_mul]
      exact add_le_add_left (dotProduct_outer_le x v) _
    have quadratic := (Objective.quadratic_lossAt x y).add (Penalty.quadratic_lossAt weight)
    rw [objective] at moved
    rw [Vec.dot_of] at short
    rw [moved, model, loss, loss]
    exact quadratic.gradient_step_le bent positive.le short w
  · have loss (v : Fin d → α) : lasso (Vec.of v) =
        Objective.ridge.lossAt v x y + weight * ∑ i, |v i| := by
      simp only [lasso, square, Vec.dot_of, Vec.sumAbs_of, Objective.lossAt]
      ring
    rw [objective] at moved
    rw [Vec.dot_of] at short
    have smooth : Penalty.smoothAt Objective.lasso.penalty weight w = 0 := rfl
    rw [smooth, add_zero] at moved
    rw [moved, model, Vec.sub_of, Vec.dot_of, loss, loss]
    exact (Objective.quadratic_lossAt x y).shrunk_step_le (dotProduct_outer_le x) positive short
      nonneg w

theorem never_raises_loss_pair :
    let task (o : Objective) : Task ℝ :=
      { Task.unit o with dimension := 2, dimension_pos := by decide }
    let model : Vec ℝ := [2, -1 / 2]
    let state (o : Objective) : PassState ℝ := ⟨task o, model, .fresh, .zero, 0⟩
    let e : Example ℝ := ⟨[3 / 5, -4 / 5], .plain 1⟩
    let ridge : Incremental ℝ := ⟨⟨task .ridge, none⟩, rfl⟩
    let lasso : Incremental ℝ := ⟨⟨task .lasso, none⟩, rfl⟩
    let square (w : Vec ℝ) := 1 / 2 * (1 - Vec.dot w e.features) ^ 2
    (∃ next, (ridge.step e).exec (state .ridge) = .ok next ∧
      square next.model + 1 / 2 * Vec.dot next.model next.model ≤
        square model + 1 / 2 * Vec.dot model model) ∧
    ∃ next, (lasso.step e).exec (state .lasso) = .ok next ∧
      square next.model + 1 * Vec.sumAbs next.model ≤ square model + 1 * Vec.sumAbs model -
        Vec.dot (Vec.sub next.model model) (Vec.sub next.model model) / (2 * 1) := by
  intro task model state e ridge lasso square
  have unit : Vec.dot e.features e.features = 1 := by norm_num [e, Vec.dot]
  have size (o : Objective) : (state o).model.length = e.dimension := rfl
  have positive (o : Objective) : 0 < (state o).task.stepsize := one_pos
  obtain ⟨next, stepped, -, falls, -⟩ :=
    never_raises_loss (i := ridge) (y := 1) rfl (size .ridge) (positive .ridge)
  obtain ⟨next', stepped', -, -, falls'⟩ :=
    never_raises_loss (i := lasso) (y := 1) rfl (size .lasso) (positive .lasso)
  refine ⟨⟨next, stepped, falls rfl ?_⟩, next', stepped', falls' rfl ?_⟩
  · rw [unit]
    norm_num [state, task, Task.unit]
  · rw [unit]
    norm_num [state, task, Task.unit]

end Incremental

end Passwise
