import Passwise.Objective

set_option autoImplicit false

namespace Passwise

structure Task (α : Type) [Scalar α] where
  dimension : Nat
  objective : Objective
  stepsize : α
  regularization : α
  dimension_pos : 0 < dimension
  stepsize_admissible : Scalar.isAdmissible stepsize = true
  regularization_admissible : Scalar.isAdmissible regularization = true

namespace Task

variable {α : Type} [Scalar α]

def make (dimension : Int) (objective : Objective) (stepsize regularization : α) :
    Except Error (Task α) :=
  if positive : 0 < dimension.toNat then
    if step : Scalar.isAdmissible stepsize then
      if weight : Scalar.isAdmissible regularization then
        .ok ⟨dimension.toNat, objective, stepsize, regularization, positive, step, weight⟩
      else .error (.notFiniteNonnegative "regularization" (Scalar.render regularization))
    else .error (.notFiniteNonnegative "stepsize" (Scalar.render stepsize))
  else .error (.dimensionNotPositive dimension)

def withStepsize (task : Task α) (stepsize : α) : Except Error (Task α) :=
  make task.dimension task.objective stepsize task.regularization

theorem make_of_task (task : Task α) :
    make task.dimension task.objective task.stepsize task.regularization = .ok task := by
  simp [make, task.dimension_pos, task.stepsize_admissible, task.regularization_admissible]

def penalty (task : Task α) : Penalty := task.objective.penalty

end Task

end Passwise
