import Passwise.Proofs.Curvature
import Passwise.Proofs.Subgradient

set_option autoImplicit false

namespace Passwise

open Matrix

variable {α : Type} [Exact α] {d : Nat}

namespace Curved

variable {m : Matrix (Fin d) (Fin d) α}

theorem mono {c c' : α} (curved : Curved c m) (below : c' ≤ c) : Curved c' m where
  symm := curved.symm
  form v :=
    (mul_le_mul_of_nonneg_right below (dotProduct_self_nonneg v)).trans (curved.form v)

theorem dotProduct_mulVec_comm (curved : Curved 0 m) (u v : Fin d → α) :
    u ⬝ᵥ m *ᵥ v = v ⬝ᵥ m *ᵥ u := by
  rw [dotProduct_mulVec, ← mulVec_transpose, curved.symm, dotProduct_comm]

theorem mulVec_eq_zero (curved : Curved 0 m) {v : Fin d → α} (flat : v ⬝ᵥ m *ᵥ v = 0) :
    m *ᵥ v = 0 := by
  let u := m *ᵥ v
  have above : 0 ≤ u ⬝ᵥ m *ᵥ u := by simpa using curved.form u
  -- A step from `v` against `m *ᵥ v` would make the form negative.
  have form (t : α) : 0 ≤ t * (2 * (u ⬝ᵥ u) + t * (u ⬝ᵥ m *ᵥ u)) := by
    have below := curved.form (v + t • u)
    have across : v ⬝ᵥ m *ᵥ u = u ⬝ᵥ u := curved.dotProduct_mulVec_comm v u
    simp only [zero_mul, mulVec_add, mulVec_smul, dotProduct_add, add_dotProduct, dotProduct_smul,
      smul_dotProduct, smul_eq_mul, flat, across] at below
    have own : u ⬝ᵥ m *ᵥ v = u ⬝ᵥ u := rfl
    rw [own] at below
    linarith
  have unit : 0 < u ⬝ᵥ m *ᵥ u + 1 := by linarith
  have step := form (-(u ⬝ᵥ u) / (u ⬝ᵥ m *ᵥ u + 1))
  have gone : u ⬝ᵥ u = 0 := by
    by_contra some
    have positive : 0 < u ⬝ᵥ u := lt_of_le_of_ne (dotProduct_self_nonneg u) (Ne.symm some)
    refine absurd step (not_le.mpr (mul_neg_of_neg_of_pos ?_ ?_))
    · exact div_neg_of_neg_of_pos (neg_neg_of_pos positive) unit
    · have share : -(u ⬝ᵥ u) / (u ⬝ᵥ m *ᵥ u + 1) * (u ⬝ᵥ m *ᵥ u) =
          -(u ⬝ᵥ u) + u ⬝ᵥ u / (u ⬝ᵥ m *ᵥ u + 1) := by
        field_simp
        ring
      have rest : 0 < u ⬝ᵥ u / (u ⬝ᵥ m *ᵥ u + 1) := div_pos positive unit
      rw [share]
      linarith
  exact dotProduct_self_eq_zero.mp gone

theorem form_pos (curved : Curved 0 m) (regular : m.det ≠ 0) {v : Fin d → α} (moves : v ≠ 0) :
    0 < v ⬝ᵥ m *ᵥ v := by
  have form : 0 ≤ v ⬝ᵥ m *ᵥ v := by simpa using curved.form v
  refine lt_of_le_of_ne form fun flat => moves ?_
  exact eq_zero_of_mulVec_eq_zero regular (curved.mulVec_eq_zero flat.symm)

end Curved

structure Quadratic (f : (Fin d → α) → α) (g : (Fin d → α) → Fin d → α)
    (m : Matrix (Fin d) (Fin d) α) : Prop where
  value : ∀ w v, f (w + v) = f w + g w ⬝ᵥ v + v ⬝ᵥ m *ᵥ v / 2
  slope : ∀ w v, g (w + v) = g w + m *ᵥ v

namespace Quadratic

variable {f f' : (Fin d → α) → α} {g g' : (Fin d → α) → Fin d → α}
  {m m' : Matrix (Fin d) (Fin d) α}

theorem zero : Quadratic (fun _ => 0) (fun _ => 0) (0 : Matrix (Fin d) (Fin d) α) where
  value w v := by simp
  slope w v := by simp

theorem add (first : Quadratic f g m) (second : Quadratic f' g' m') :
    Quadratic (fun w => f w + f' w) (fun w => g w + g' w) (m + m') where
  value w v := by
    rw [first.value, second.value, add_dotProduct, add_mulVec, dotProduct_add]
    ring
  slope w v := by
    rw [first.slope, second.slope, add_mulVec]
    exact add_add_add_comm _ _ _ _

theorem sum {β : Type} {xs : List β} {f : β → (Fin d → α) → α}
    {g : β → (Fin d → α) → Fin d → α} {m : β → Matrix (Fin d) (Fin d) α}
    (each : ∀ x ∈ xs, Quadratic (f x) (g x) (m x)) :
    Quadratic (fun w => (xs.map fun x => f x w).sum) (fun w => (xs.map fun x => g x w).sum)
      (xs.map m).sum := by
  induction xs with
  | nil => exact zero
  | cons x xs ih =>
    simp only [List.map_cons, List.sum_cons]
    exact (each x (by simp)).add (ih fun y member => each y (by simp [member]))

theorem slope_step (quadratic : Quadratic f g m) {w x : Fin d → α} (solves : m *ᵥ x = g w) :
    g (w - x) = 0 := by
  rw [sub_eq_add_neg, quadratic.slope, mulVec_neg, solves, add_neg_cancel]

theorem least_of_flat (quadratic : Quadratic f g m) (curved : Curved 0 m) (regular : m.det ≠ 0)
    {w : Fin d → α} (flat : g w = 0) (w' : Fin d → α) : f w ≤ f w' ∧ (f w' = f w → w' = w) := by
  have rise : f w' = f w + (w' - w) ⬝ᵥ m *ᵥ (w' - w) / 2 := by
    have value := quadratic.value w (w' - w)
    rwa [add_sub_cancel, flat, zero_dotProduct, add_zero] at value
  have form : 0 ≤ (w' - w) ⬝ᵥ m *ᵥ (w' - w) := by simpa using curved.form (w' - w)
  refine ⟨by linarith, fun same => ?_⟩
  by_contra other
  have positive := curved.form_pos regular (sub_ne_zero.mpr other)
  linarith

end Quadratic

theorem Penalty.quadratic_lossAt (weight : α) :
    Quadratic (l2.lossAt (d := d) weight) (l2.gradientAt weight) (weight • 1) where
  value w v := by
    simp only [lossAt, gradientAt, Exact.half_eq, add_dotProduct, dotProduct_add, smul_dotProduct,
      smul_mulVec, one_mulVec, dotProduct_smul, smul_eq_mul, dotProduct_comm v w]
    ring
  slope w v := by
    rw [gradientAt, gradientAt, smul_add, smul_mulVec, one_mulVec]

namespace Objective

theorem quadratic_lossAt (x : Fin d → α) (y : α) :
    Quadratic (ridge.lossAt · x y) (ridge.gradientAt · x y) (vecMulVec x x) where
  value w v := by
    simp only [lossAt, gradientAt, vecMulVec_mulVec, op_smul_eq_smul, add_dotProduct,
      smul_dotProduct, dotProduct_smul, smul_eq_mul, dotProduct_comm v x]
    ring
  slope w v := by
    rw [gradientAt, gradientAt, vecMulVec_mulVec, op_smul_eq_smul, add_dotProduct, ← add_smul,
      dotProduct_comm v x]
    congr 1
    ring

variable (o : Objective) (weight : α) (examples : List (Example α)) (w : Fin d → α)

def hessianOver : Matrix (Fin d) (Fin d) α :=
  (examples.map fun e => o.hessianAt w (Vec.entries d e.features)).sum + weight • 1

theorem sum_share_hessian :
    (examples.map (o.share w)).sum.2.2.1 =
      (examples.map fun e => o.hessianAt w (Vec.entries d e.features)).sum := by
  induction examples with
  | nil => rfl
  | cons e examples ih =>
    simp only [List.map_cons, List.sum_cons, Prod.fst_add, Prod.snd_add, ih]
    rfl

theorem quadratic_lossOver : Quadratic (ridge.lossOver weight examples)
    (ridge.gradientOver weight examples) (ridge.hessianOver (d := d) weight examples 0) :=
  (Quadratic.sum fun e _ => quadratic_lossAt (Vec.entries d e.features) e.label.number).add
    (Penalty.quadratic_lossAt weight)

variable {weight} in
theorem curved_hessianOver (nonneg : 0 ≤ weight) :
    Curved 0 (ridge.hessianOver (d := d) weight examples 0) := by
  have losses : Curved 0 (examples.map fun e =>
      ridge.hessianAt 0 (Vec.entries d e.features)).sum := by
    refine Curved.sum fun m member => ?_
    obtain ⟨e, -, rfl⟩ := List.mem_map.mp member
    exact Curved.outer (Vec.entries d e.features)
  exact (losses.add (Curved.diagonal weight)).mono (by simpa using nonneg)

end Objective

end Passwise
