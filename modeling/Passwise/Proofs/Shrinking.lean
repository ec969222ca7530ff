import Passwise.Proofs.Coordinates
import Passwise.Proofs.Reals
import Passwise.Penalty

set_option autoImplicit false

namespace Passwise

open Matrix

variable {α : Type} [Exact α] {d : Nat}

def shrunk (threshold x : α) : α := Scalar.sign x * max 0 (|x| - threshold)

theorem shrunk_of_abs_le {threshold x : α} (within : |x| ≤ threshold) : shrunk threshold x = 0 := by
  rw [shrunk, max_eq_left (sub_nonpos.mpr within), mul_zero]

theorem shrunk_of_lt {threshold x : α} (nonneg : 0 ≤ threshold) (above : threshold < x) :
    shrunk threshold x = x - threshold := by
  have positive : 0 < x := nonneg.trans_lt above
  rw [shrunk, abs_of_pos positive, Scalar.sign, if_pos positive, one_mul,
    max_eq_right (sub_nonneg.mpr above.le)]

theorem shrunk_of_lt_neg {threshold x : α} (nonneg : 0 ≤ threshold) (below : x < -threshold) :
    shrunk threshold x = x + threshold := by
  have negative : x < 0 := below.trans_le (neg_nonpos.mpr nonneg)
  rw [shrunk, abs_of_neg negative, Scalar.sign, if_neg negative.not_gt, if_pos negative,
    max_eq_right (by linarith)]
  ring

theorem shrunk_le {threshold : α} (nonneg : 0 ≤ threshold) (x u : α) :
    (x - shrunk threshold x) * (u - shrunk threshold x) ≤
      threshold * (|u| - |shrunk threshold x|) := by
  have upper := le_abs_self u
  have lower := neg_abs_le u
  rcases le_or_gt |x| threshold with within | beyond
  · rw [shrunk_of_abs_le within, sub_zero, sub_zero, abs_zero, sub_zero]
    calc x * u ≤ |x * u| := le_abs_self _
      _ = |x| * |u| := abs_mul x u
      _ ≤ threshold * |u| := mul_le_mul_of_nonneg_right within (abs_nonneg u)
  rcases lt_abs.mp beyond with above | below
  · have positive : 0 ≤ x - threshold := sub_nonneg.mpr above.le
    rw [shrunk_of_lt nonneg above, abs_of_nonneg positive, sub_sub_cancel]
    gcongr
  · have negative : x + threshold ≤ 0 := by linarith
    rw [shrunk_of_lt_neg nonneg (by linarith), abs_of_nonpos negative]
    have scaled : 0 ≤ threshold * (|u| + u) := mul_nonneg nonneg (by linarith)
    linarith

namespace Vec

theorem sumAbs_of (v : Fin d → α) : sumAbs (of v) = ∑ i, |v i| := by
  simp [sumAbs, of, List.sum_ofFn]

def proximalCost (weight : α) (v u : Vec α) : α :=
  Scalar.half * dot (sub u v) (sub u v) + weight * sumAbs u

theorem proximalCost_of (weight : α) (v u : Fin d → α) :
    proximalCost weight (of v) (of u) =
      1 / 2 * ((u - v) ⬝ᵥ (u - v)) + weight * ∑ i, |u i| := by
  rw [proximalCost, Exact.half_eq, sub_of, dot_of, sumAbs_of]

end Vec

theorem softThreshold_of (threshold : α) (v : Fin d → α) :
    softThreshold threshold (Vec.of v) = .ok (Vec.of fun i => shrunk threshold (v i)) := by
  simp [softThreshold, Vec.map_of, shrunk]

theorem dotProduct_shrunk_le {threshold : α} (nonneg : 0 ≤ threshold) (v u : Fin d → α) :
    let p := fun i => shrunk threshold (v i)
    (v - p) ⬝ᵥ (u - p) ≤ threshold * (∑ i, |u i| - ∑ i, |p i|) := by
  intro p
  rw [← Finset.sum_sub_distrib, Finset.mul_sum]
  exact Finset.sum_le_sum fun i _ => shrunk_le nonneg (v i) (u i)

theorem proximalCost_shrunk_add_le {threshold : α} (nonneg : 0 ≤ threshold) (v u : Fin d → α) :
    let p := fun i => shrunk threshold (v i)
    Vec.proximalCost threshold (Vec.of v) (Vec.of p) + (u - p) ⬝ᵥ (u - p) / 2 ≤
      Vec.proximalCost threshold (Vec.of v) (Vec.of u) := by
  intro p
  have shrinking : (v - p) ⬝ᵥ (u - p) ≤ threshold * (∑ i, |u i| - ∑ i, |p i|) :=
    dotProduct_shrunk_le nonneg v u
  -- The way from `v` to `u` leads over `p`.
  have square : (u - v) ⬝ᵥ (u - v) =
      (p - v) ⬝ᵥ (p - v) - 2 * ((v - p) ⬝ᵥ (u - p)) + (u - p) ⬝ᵥ (u - p) := by
    simp only [sub_dotProduct, dotProduct_sub, dotProduct_comm v u, dotProduct_comm p u,
      dotProduct_comm p v]
    ring
  rw [Vec.proximalCost_of, Vec.proximalCost_of, square]
  linarith

theorem softThreshold_least {threshold : α} (nonneg : 0 ≤ threshold) (v : Vec α) :
    ∃ p, softThreshold threshold v = .ok p ∧ p.length = v.length ∧
      ∀ u : Vec α, u.length = v.length →
        v.proximalCost threshold p ≤ v.proximalCost threshold u ∧
          (v.proximalCost threshold u = v.proximalCost threshold p → u = p) := by
  generalize size : v.length = d
  obtain ⟨v, rfl⟩ := Vec.exists_of size
  refine ⟨_, softThreshold_of threshold v, Vec.length_of _, fun u size => ?_⟩
  obtain ⟨u, rfl⟩ := Vec.exists_of size
  let p := fun i => shrunk threshold (v i)
  have rise : (Vec.of v).proximalCost threshold (Vec.of p) + (u - p) ⬝ᵥ (u - p) / 2 ≤
      (Vec.of v).proximalCost threshold (Vec.of u) := proximalCost_shrunk_add_le nonneg v u
  have distance := dotProduct_self_nonneg (u - p)
  refine ⟨by linarith, fun same => ?_⟩
  have gone : (u - p) ⬝ᵥ (u - p) = 0 := by linarith
  exact congrArg Vec.of (sub_eq_zero.mp (dotProduct_self_eq_zero.mp gone))

theorem softThreshold_least_mixed :
    let v : Vec ℝ := [2, -1 / 2, 1, -3]
    let p : Vec ℝ := [1, 0, 0, -2]
    let u : Vec ℝ := [1, -1 / 2, 0, -2]
    softThreshold 1 v = .ok p ∧ v.proximalCost 1 p < v.proximalCost 1 u := by
  intro v p u
  have moved : softThreshold 1 v = .ok p := by
    norm_num [softThreshold, Scalar.sign, v, p]
  obtain ⟨p', moved', -, least⟩ := softThreshold_least zero_le_one v
  rw [moved, Except.ok.injEq] at moved'
  subst moved'
  obtain ⟨below, only⟩ := least u rfl
  have other : u ≠ p := by norm_num [u, p]
  exact ⟨moved, lt_of_le_of_ne below fun same => other (only same.symm)⟩

end Passwise
