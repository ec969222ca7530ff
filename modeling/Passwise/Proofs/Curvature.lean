import Passwise.Proofs.Breslow
import Passwise.Proofs.Objective

set_option autoImplicit false

namespace Passwise

open Matrix

variable {α : Type} [Exact α] {d : Nat}

structure Curved (c : α) (m : Matrix (Fin d) (Fin d) α) : Prop where
  symm : m.IsSymm
  form : ∀ v, c * (v ⬝ᵥ v) ≤ v ⬝ᵥ m *ᵥ v

namespace Curved

variable {c c' : α} {m m' : Matrix (Fin d) (Fin d) α}

theorem zero : Curved 0 (0 : Matrix (Fin d) (Fin d) α) where
  symm := rfl
  form v := by simp

theorem add (first : Curved c m) (second : Curved c' m') : Curved (c + c') (m + m') where
  symm := first.symm.add second.symm
  form v := by
    rw [add_mulVec, dotProduct_add, add_mul]
    exact add_le_add (first.form v) (second.form v)

theorem smul {a : α} (nonneg : 0 ≤ a) (curved : Curved 0 m) : Curved 0 (a • m) where
  symm := curved.symm.smul a
  form v := by
    have form := curved.form v
    rw [zero_mul] at form ⊢
    rw [smul_mulVec, dotProduct_smul]
    exact mul_nonneg nonneg form

theorem outer (x : Fin d → α) : Curved 0 (vecMulVec x x) where
  symm := by
    ext i j
    simp [vecMulVec_apply, mul_comm]
  form v := by
    rw [zero_mul, vecMulVec_mulVec, op_smul_eq_smul, dotProduct_smul, dotProduct_comm v,
      smul_eq_mul]
    exact mul_self_nonneg _

theorem diagonal (c : α) : Curved c (c • (1 : Matrix (Fin d) (Fin d) α)) where
  symm := isSymm_one.smul c
  form v := by simp [smul_mulVec]

theorem sum {ms : List (Matrix (Fin d) (Fin d) α)} (each : ∀ m ∈ ms, Curved 0 m) :
    Curved 0 ms.sum := by
  induction ms with
  | nil => exact zero
  | cons m ms ih =>
    have both := (each m (by simp)).add (ih fun n member => each n (by simp [member]))
    rwa [add_zero] at both

theorem det_ne_zero (positive : 0 < c) (curved : Curved c m) : m.det ≠ 0 := by
  intro singular
  obtain ⟨v, nonzero, kernel⟩ := exists_mulVec_eq_zero_iff.mpr singular
  have form := curved.form v
  rw [kernel, dotProduct_zero] at form
  refine absurd form (not_le.mpr (mul_pos positive ?_))
  obtain ⟨i, entry⟩ := Function.ne_iff.mp nonzero
  exact Finset.sum_pos' (fun j _ => mul_self_nonneg _) ⟨i, Finset.mem_univ i,
    mul_self_pos.mpr entry⟩

theorem descent (curved : Curved c m) {g x : Fin d → α} (solves : m *ᵥ x = g) :
    g ⬝ᵥ -x ≤ -(c * (-x ⬝ᵥ -x)) := by
  have form := curved.form x
  rw [solves] at form
  rw [dotProduct_neg, dotProduct_neg, neg_dotProduct, neg_neg, dotProduct_comm g]
  exact neg_le_neg form

end Curved

theorem Objective.curved_hessianAt
    (bounded : ∀ x : α, 0 ≤ Scalar.sigmoid x ∧ Scalar.sigmoid x ≤ 1) (o : Objective)
    (w x : Fin d → α) : Curved 0 (o.hessianAt w x) := by
  cases o with
  | logistic =>
    obtain ⟨low, high⟩ := bounded (w ⬝ᵥ x)
    exact (Curved.outer x).smul (mul_nonneg low (sub_nonneg.mpr high))
  | ridge | lasso => exact Curved.outer x
  | svm | cox => exact Curved.zero

namespace Breslow

variable (w : Fin d → α)

-- The weighted squares of the distances from a point, in terms of the running sums.
theorem sum_outer_sub (u : Fin d → α) (risk : List (Example α)) :
    (risk.map fun j => weight w j • vecMulVec (point j - u) (point j - u)).sum =
      s2 w risk - vecMulVec (s1 w risk) u - vecMulVec u (s1 w risk) +
        s0 w risk • vecMulVec u u := by
  induction risk with
  | nil => simp [s0, s1, s2]
  | cons j risk ih =>
    rw [List.map_cons, List.sum_cons, ih]
    ext i k
    simp [s0, s1, s2, vecMulVec_apply]
    ring

variable (exp_pos : ∀ x : α, 0 < Scalar.exp x)

include exp_pos in
theorem curved_variance {risk : List (Example α)} (someone : risk ≠ []) :
    Curved 0 ((s0 w risk)⁻¹ • s2 w risk - vecMulVec (mean w risk) (mean w risk)) := by
  have positive := s0_pos w exp_pos someone
  have variance : (s0 w risk)⁻¹ • s2 w risk - vecMulVec (mean w risk) (mean w risk) =
      (s0 w risk)⁻¹ • (risk.map fun j => weight w j •
        vecMulVec (point j - mean w risk) (point j - mean w risk)).sum := by
    have first : s1 w risk = s0 w risk • mean w risk := by
      rw [mean, smul_smul, mul_inv_cancel₀ positive.ne', one_smul]
    rw [sum_outer_sub, first, smul_vecMulVec, vecMulVec_smul, sub_add_cancel, smul_sub, smul_smul,
      inv_mul_cancel₀ positive.ne', one_smul]
  rw [variance]
  refine Curved.smul (inv_nonneg.mpr positive.le) (Curved.sum fun m member => ?_)
  obtain ⟨j, _, rfl⟩ := List.mem_map.mp member
  exact (Curved.outer _).smul (exp_pos _).le

include exp_pos in
theorem curved_groupTerms (before group : List (Example α)) :
    Curved 0 (groupTerms w (before ++ group) group).2.2 := by
  by_cases empty : group = []
  · subst empty
    exact Curved.zero
  · have someone : before ++ group ≠ [] := by simp [empty]
    rw [groupTerms_eq]
    exact (curved_variance w exp_pos someone).smul (Nat.cast_nonneg _)

include exp_pos in
theorem curved_scored (before : List (Example α)) (groups : List (List (Example α))) :
    Curved 0 (scored w before groups).2.2 := by
  induction groups generalizing before with
  | nil => exact Curved.zero
  | cons group rest ih =>
    have both := (curved_groupTerms w exp_pos before group).add (ih (before ++ group))
    rwa [add_zero] at both

end Breslow

end Passwise
