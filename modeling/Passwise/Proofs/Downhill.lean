import Passwise.Proofs.Coordinates
import Passwise.Proofs.Reals
import Passwise.Proofs.Findings
import Passwise.Conjugate

set_option autoImplicit false

namespace Passwise

open Matrix

variable {α : Type} [Exact α] {d : Nat}

theorem BetaRule.exists_weight (rule : BetaRule) (g h : Fin d → α) {square : α}
    (nonzero : square ≠ 0) : ∃ c, rule.weight (Vec.of g) (Vec.of h) square = .ok c := by
  cases rule with
  | fletcherReeves => simp [weight, Exact.ratio_of_ne _ nonzero]
  | polakRibiere => simp [weight, Vec.combine_of, Exact.ratio_of_ne _ nonzero]

namespace Conjugate

theorem exists_direction {memory : Memory α} (fits : memory.Fits d) (rule : BetaRule)
    (g : Fin d → α) :
    ∃ v, direction rule (Vec.of g) memory = .ok (Vec.of v) ∧ (v = -g ∨ g ⬝ᵥ v < 0) := by
  have steepest : Vec.neg (Vec.of g) = Vec.of (-g) := Vec.neg_of g
  unfold direction
  cases earlier : memory.direction with
  | none => exact ⟨-g, by rw [steepest], .inl rfl⟩
  | some u =>
    cases previous : memory.previousGradient with
    | none => exact ⟨-g, by rw [steepest], .inl rfl⟩
    | some h =>
      rw [← Vec.of_entries (fits.direction u earlier),
        ← Vec.of_entries (fits.previousGradient h previous), steepest]
      dsimp only
      split_ifs with first flat
      · exact ⟨-g, rfl, .inl rfl⟩
      · exact ⟨-g, rfl, .inl rfl⟩
      · obtain ⟨c, weighed⟩ := rule.exists_weight g (Vec.entries d h) (ne_of_gt (not_le.mp flat))
        rw [weighed, ok_bind, Vec.scale_of, Vec.add?_of, ok_bind, Vec.dot?_of, ok_bind]
        split_ifs with climbs
        · exact ⟨-g, rfl, .inl rfl⟩
        · exact ⟨_, rfl, .inr (not_le.mp climbs)⟩

theorem direction_descends {memory : Memory α} (fits : memory.Fits d) (rule : BetaRule)
    (g : Fin d → α) :
    ∃ v : Fin d → α, direction rule (Vec.of g) memory = .ok (Vec.of v) ∧
      g ⬝ᵥ v ≤ 0 ∧ (g ⬝ᵥ v = 0 ↔ g = 0) ∧ (g = 0 → v = 0) := by
  obtain ⟨v, directed, descends⟩ := exists_direction fits rule g
  refine ⟨v, directed, ?_⟩
  by_cases flat : g = 0
  · subst flat
    have still : v = 0 := by
      rcases descends with rfl | below
      · exact neg_zero
      · rw [zero_dotProduct] at below
        exact absurd below (lt_irrefl 0)
    simp [still]
  · have below : g ⬝ᵥ v < 0 := by
      rcases descends with rfl | below
      · rw [dotProduct_neg]
        exact neg_neg_of_pos (dotProduct_self_pos flat)
      · exact below
    exact ⟨below.le, iff_of_false below.ne flat, fun same => absurd same flat⟩

theorem direction_descends_bent :
    let memory : Memory ℝ := ⟨3, some [10, 0], some [1, 1]⟩
    memory.Fits 2 ∧ ∃ v : Fin 2 → ℝ,
      direction .polakRibiere [1, 2] memory = .ok (Vec.of v) ∧ v 0 + 2 * v 1 < 0 := by
  intro memory
  have fits : memory.Fits 2 := ⟨by simp [memory], by simp [memory]⟩
  have gradient : Vec.of ![(1 : ℝ), 2] = [1, 2] := rfl
  obtain ⟨v, directed, below, level, -⟩ := direction_descends fits .polakRibiere ![1, 2]
  have moves : ![(1 : ℝ), 2] ≠ 0 := fun same => one_ne_zero (congrFun same 0)
  have slope : ![1, 2] ⬝ᵥ v = v 0 + 2 * v 1 := by simp [dotProduct, Fin.sum_univ_two]
  rw [gradient] at directed
  refine ⟨fits, v, directed, ?_⟩
  rw [← slope]
  exact lt_of_le_of_ne below fun none => moves (level.mp none)

end Conjugate

end Passwise
