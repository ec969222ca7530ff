import Mathlib
import Passwise.Scalar

set_option autoImplicit false

namespace Passwise

class Exact (α : Type) extends Field α, LinearOrder α, IsStrictOrderedRing α, Scalar α where
  beq_iff : ∀ x y : α, (x == y) = true ↔ x = y
  ofInt_cast : ∀ n : Int, ofInt n = (n : α)
  plain_id : ∀ x : α, plain x = x
  measure_ok : ∀ x : α, measure x = .ok x
  operand_ok : ∀ x : α, operand x = .ok x
  factor_ok : ∀ x : α, factor x = .ok x
  row_ok : ∀ xs : List α, row xs = .ok xs
  power_pow : ∀ (x : α) (n : Nat), power x n = x ^ n

-- No value of an ordered field is infinite or undefined; theorems that need it say so.
class Exact.Finite (α : Type) [Exact α] : Prop where
  isFinite_true : ∀ x : α, Scalar.isFinite x = true
  isNaN_false : ∀ x : α, Scalar.isNaN x = false

namespace Exact

variable {α : Type} [Exact α]

attribute [simp] Finite.isFinite_true Finite.isNaN_false

@[simp] theorem plain_eq (x : α) : Scalar.plain x = x := plain_id x

@[simp] theorem measure_eq (x : α) : Scalar.measure x = .ok x := measure_ok x

@[simp] theorem operand_eq (x : α) : Scalar.operand x = .ok x := operand_ok x

@[simp] theorem factor_eq (x : α) : Scalar.factor x = .ok x := factor_ok x

@[simp] theorem row_eq (xs : List α) : Scalar.row xs = .ok xs := row_ok xs

@[simp] theorem power_eq (x : α) (n : Nat) : Scalar.power x n = x ^ n := power_pow x n

@[simp] theorem beq_eq_decide (x y : α) : (x == y) = decide (x = y) := by
  rw [Bool.eq_iff_iff, beq_iff, decide_eq_true_iff]

@[simp] theorem ofInt_eq (n : Int) : (Scalar.ofInt n : α) = n := ofInt_cast n

@[simp] theorem ofNat_eq (n : Nat) : (Scalar.ofNat n : α) = n := by
  simp [Scalar.ofNat]

theorem ratio_of_ne (x : α) {y : α} (nonzero : y ≠ 0) : Scalar.ratio x y = .ok (x / y) := by
  simp [Scalar.ratio, nonzero]

theorem half_eq : (Scalar.half : α) = 1 / 2 := by
  rw [Scalar.half, one_add_one_eq_two]

@[simp] theorem abs_eq (x : α) : Scalar.abs x = |x| := by
  unfold Scalar.abs
  split_ifs with negative
  · exact (abs_of_neg negative).symm
  · exact (abs_of_nonneg (not_lt.mp negative)).symm

@[simp] theorem atLeast_eq (bound x : α) : Scalar.atLeast bound x = max bound x := by
  unfold Scalar.atLeast
  split_ifs with below
  · exact (max_eq_left below.le).symm
  · exact (max_eq_right (not_lt.mp below)).symm

@[simp] theorem positivePart_eq (x : α) : Scalar.positivePart x = max 0 x := by
  unfold Scalar.positivePart
  split_ifs with positive
  · exact (max_eq_right positive.le).symm
  · exact (max_eq_left (not_lt.mp positive)).symm

end Exact

end Passwise
