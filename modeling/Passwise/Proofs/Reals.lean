import Passwise.Proofs.Objective
import Passwise.Linear.Solver
import Passwise.Task

set_option autoImplicit false

namespace Passwise

noncomputable section

instance : Exact ℝ where
  decidableLT := inferInstance
  decidableLE := inferInstance
  beq x y := decide (x = y)
  ofInt n := n
  truncate x := if 0 ≤ x then ⌊x⌋ else ⌈x⌉
  isFinite _ := true
  isNaN _ := false
  -- no real number is left over to stand for a missing one
  missing := 0
  sqrt := Real.sqrt
  exp := Real.exp
  log := Real.log
  power x n := x ^ n
  softplus t := Real.log (1 + Real.exp t)
  sigmoid t := 1 / (1 + Real.exp (-t))
  erfc x := (2 : Nat) / Real.sqrt Real.pi * ∫ t in Set.Ioi x, Real.exp (-t ^ 2)
  render _ := "a real number"
  renderBrief _ := "a real number"
  beq_iff := by simp
  ofInt_cast _ := rfl
  plain_id _ := rfl
  measure_ok _ := rfl
  operand_ok _ := rfl
  factor_ok _ := rfl
  row_ok _ := rfl
  power_pow _ _ := rfl

instance : Exact.Finite ℝ := ⟨fun _ => rfl, fun _ => rfl⟩

instance : DenseSolver ℝ := ⟨Rotation.condition, Elimination.solve, Elimination.inverse⟩

theorem sigmoid_bounded (x : ℝ) : 0 ≤ Scalar.sigmoid x ∧ Scalar.sigmoid x ≤ 1 := by
  change 0 ≤ 1 / (1 + Real.exp (-x)) ∧ 1 / (1 + Real.exp (-x)) ≤ 1
  have positive := Real.exp_pos (-x)
  exact ⟨by positivity, (div_le_one (by positivity)).mpr (by linarith)⟩

theorem isAdmissible_one : Scalar.isAdmissible (1 : ℝ) = true := by
  have positive : ¬ (1 : ℝ) < 0 := by norm_num
  simp [Scalar.isAdmissible, positive]

def Task.unit (o : Objective) : Task ℝ :=
  ⟨1, o, 1, 1, Nat.one_pos, isAdmissible_one, isAdmissible_one⟩

end

end Passwise
