import Passwise.Proofs.Coordinates
import Passwise.Objective

set_option autoImplicit false

namespace Passwise

open Matrix

variable {α : Type} [Exact α] {d : Nat}

namespace Label

def classOf (y : α) : α := if 0 < y then 1 else -1

theorem sign_of_survival {label : Label α} (kind : label.isSurvival = true) :
    label.sign = .error .wrongType := by
  cases label <;> simp_all [isSurvival, sign]

omit [Exact α] in
theorem value_of_survival {label : Label α} (kind : label.isSurvival = true) :
    label.value = .error .wrongType := by
  cases label <;> simp_all [isSurvival, value]

omit [Exact α] in
theorem eq_plain {label : Label α} (kind : label.isSurvival = false) :
    label = .plain label.number := by
  cases label <;> simp_all [isSurvival, number]

end Label

namespace Objective

open Label (classOf)

def lossAt (o : Objective) (w x : Fin d → α) (y : α) : α :=
  match o with
  | svm => max 0 (1 - classOf y * (w ⬝ᵥ x))
  | logistic => Scalar.softplus (-classOf y * (w ⬝ᵥ x))
  | ridge | lasso => 1 / 2 * (y - w ⬝ᵥ x) * (y - w ⬝ᵥ x)
  | cox => 0

def gradientAt (o : Objective) (w x : Fin d → α) (y : α) : Fin d → α :=
  match o with
  | svm => if 1 ≤ classOf y * (w ⬝ᵥ x) then 0 else -classOf y • x
  | logistic => (-classOf y * Scalar.sigmoid (-classOf y * (w ⬝ᵥ x))) • x
  | ridge | lasso => -(y - w ⬝ᵥ x) • x
  | cox => 0

def hessianAt (o : Objective) (w x : Fin d → α) : Matrix (Fin d) (Fin d) α :=
  match o with
  | logistic => (Scalar.sigmoid (w ⬝ᵥ x) * (1 - Scalar.sigmoid (w ⬝ᵥ x))) • vecMulVec x x
  | ridge | lasso => vecMulVec x x
  | svm | cox => 0

variable {o : Objective}

theorem usesRiskSet_eq_false (other : o ≠ .cox) : o.usesRiskSet = false := by
  cases o with
  | cox => exact absurd rfl other
  | svm | logistic | ridge | lasso => rfl

theorem loss_of (separable : o.usesRiskSet = false) (w x : Fin d → α) (y : α) :
    o.loss (Vec.of w) ⟨Vec.of x, .plain y⟩ = .ok (o.lossAt w x y) := by
  cases o with
  | svm => simp [loss, Label.sign, lossAt, classOf]
  | logistic => simp [loss, Label.sign, lossAt, classOf]
  | ridge | lasso =>
    simp [loss, Label.value, lossAt, Exact.half_eq]
  | cox => simp [usesRiskSet] at separable

theorem gradient_of (separable : o.usesRiskSet = false) (w x : Fin d → α) (y : α) :
    o.gradient (Vec.of w) ⟨Vec.of x, .plain y⟩ = .ok (Vec.of (o.gradientAt w x y)) := by
  cases o with
  | svm =>
    simp only [gradient, Label.sign, gradientAt, classOf, ok_bind, pure_ok, Vec.dot?_of,
      Vec.length_of, Vec.zeros_eq, Vec.scale_of]
    split_ifs <;> rfl
  | logistic => simp [gradient, Label.sign, gradientAt, classOf]
  | ridge | lasso => simp [gradient, Label.value, gradientAt]
  | cox => simp [usesRiskSet] at separable

theorem hessian_of (separable : o.usesRiskSet = false) (curved : o.hasCurvature = true)
    (w x : Fin d → α) (y : α) :
    o.hessian (Vec.of w) ⟨Vec.of x, .plain y⟩ = .ok (Mat.of (o.hessianAt w x)) := by
  cases o with
  | svm => simp [hasCurvature] at curved
  | logistic => simp [hessian, hessianAt]
  | ridge | lasso => simp [hessian, hessianAt]
  | cox => simp [usesRiskSet] at separable

theorem refuses_misfits (separable : o.usesRiskSet = false) (model : Vec α) {n : Nat}
    {survival : Bool} (misfit : survival = true ∨ model.length ≠ n) :
    ∃ cause, ∀ e : Example α, e.dimension = n → e.label.isSurvival = survival →
      o.gradient model e = .error cause ∧ o.loss model e = .error cause := by
  have dot_error (e : Example α) (size : e.dimension = n) (longer : model.length ≠ n) :
      Vec.dot? model e.features = .error .shape := by
    exact if_neg fun same => longer (same.trans size)
  have dot_ok (e : Example α) (size : e.dimension = n) (fits : model.length = n) :
      Vec.dot? model e.features = .ok (Vec.dot model e.features) :=
    Vec.dot?_of_length_eq (fits.trans size.symm)
  cases o with
  | svm | logistic =>
    cases survival with
    | true =>
      refine ⟨.wrongType, fun e _ kind => ?_⟩
      simp [gradient, loss, Label.sign_of_survival kind]
    | false =>
      refine ⟨.shape, fun e size kind => ?_⟩
      have longer : model.length ≠ n := by simpa using misfit
      rw [gradient, loss, Label.eq_plain kind]
      simp [Label.sign, dot_error e size longer]
  | ridge | lasso =>
    by_cases fits : model.length = n
    · refine ⟨.wrongType, fun e size kind => ?_⟩
      have timed : survival = true := by simpa [fits] using misfit
      simp [gradient, loss, dot_ok e size fits, Label.value_of_survival (kind.trans timed)]
    · refine ⟨.shape, fun e size _ => ?_⟩
      simp [gradient, loss, dot_error e size fits]
  | cox => simp [usesRiskSet] at separable

end Objective

end Passwise
