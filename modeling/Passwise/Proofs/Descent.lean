import Passwise.Proofs.Curvature
import Passwise.Proofs.Reachable
import Passwise.Proofs.Solving

set_option autoImplicit false

namespace Passwise

open Matrix Breslow

variable {α : Type} [Exact α]

theorem Share.curved_sum {d : Nat} (bounded : ∀ x : α, 0 ≤ Scalar.sigmoid x ∧ Scalar.sigmoid x ≤ 1)
    (o : Objective) (w : Fin d → α) (xs : List (Example α)) :
    Curved 0 (xs.map (o.share w)).sum.2.2.1 := by
  induction xs with
  | nil => exact Curved.zero
  | cons e xs ih =>
    have both := (o.curved_hessianAt bounded w (Vec.entries d e.features)).add ih
    rwa [add_zero] at both

namespace Newton

variable [DenseSolver α] {d : Nat} {n : Newton α} {start state : PassState α}
  {xs : List (Example α)}

structure Collected (n : Newton α) (start state : PassState α)
    (sums : α × (Fin n.origin.task.dimension → α) ×
      Matrix (Fin n.origin.task.dimension) (Fin n.origin.task.dimension) α) : Prop where
  task : state.task = start.task
  model : state.model = start.model
  fits : state.rows ≠ 0 → start.model.length = n.origin.task.dimension
  closed : n.closedSums state.totals = .ok ⟨Vec.of sums.2.1, Mat.of sums.2.2, sums.1⟩
  curved : Curved 0 sums.2.2

theorem collected_separable (bounded : ∀ x : α, 0 ≤ Scalar.sigmoid x ∧ Scalar.sigmoid x ≤ 1)
    (separable : n.objective.usesRiskSet = false) (started : n.strategy.start = .ok start)
    (after : n.machine.After start xs state) : ∃ sums, n.Collected start state sums := by
  obtain ⟨fits, -, same⟩ := ((additive separable).after_iff started).mp after
  let total := (xs.map (n.objective.share
    (Vec.entries n.strategy.origin.task.dimension start.model))).sum
  refine ⟨(total.1, total.2.1, total.2.2.1), ?_⟩
  rw [same]
  constructor
  case task => rfl
  case model => rfl
  case fits =>
    intro some
    refine fits ?_
    rintro rfl
    exact some rfl
  case closed => rfl
  case curved => exact Share.curved_sum bounded n.objective _ xs

variable [Exact.Finite α] (exp_pos : ∀ x : α, 0 < Scalar.exp x)

include exp_pos in
theorem collected_cox (cox : n.objective = .cox) (started : n.strategy.start = .ok start)
    (after : n.machine.After start xs state) : ∃ sums, n.Collected start state sums := by
  obtain ⟨takes, same⟩ := fold_from_start exp_pos cox rfl started after
  let w := Vec.entries n.origin.task.dimension start.model
  have closed := closedSums_from w exp_pos cox rfl started xs
  have since := coxFrom_since w rfl started xs
  rw [Option.some.injEq] at same
  refine ⟨scored w [] (Groups.ofStream xs).all, ?_⟩
  constructor
  case task => rw [same, since]; rfl
  case model => rw [same, since]; rfl
  case fits =>
    intro some
    refine takes.fits ?_
    rintro rfl
    rw [same, since] at some
    exact some rfl
  case closed => rw [same, closed]
  case curved => exact curved_scored w exp_pos [] _

include exp_pos in
theorem exists_collected (bounded : ∀ x : α, 0 ≤ Scalar.sigmoid x ∧ Scalar.sigmoid x ≤ 1)
    (started : n.strategy.start = .ok start) (reached : n.machine.Reachable (some state)) :
    ∃ sums, n.Collected start state sums := by
  obtain ⟨xs, after⟩ := exists_stream exp_pos started reached
  by_cases cox : n.objective = .cox
  · exact collected_cox exp_pos cox started after
  · exact collected_separable bounded (Objective.usesRiskSet_eq_false cox) started after

def Solves (m : Matrix (Fin d) (Fin d) α) (v : Fin d → α) : Prop :=
  ∀ answer, DenseSolver.solve (Mat.of m) (Vec.of v) = .ok answer →
    ∃ x, answer = Vec.of x ∧ m *ᵥ x = v

structure Answered (n : Newton α) (state : PassState α) (sums : Contribution α)
    (found : Snapshot α) (change : Vec α) (inverse : Mat α) : Prop where
  carries : found.task = state.task
  well : DenseSolver.condition sums.hessian ≤ n.conditionBound
  solved : DenseSolver.solve sums.hessian sums.gradient = .ok change
  inverted : DenseSolver.inverse sums.hessian = .ok inverse
  moved : Vec.combine (· - ·) state.model change = .ok found.model
  diagonal : found.inverseDiagonal = some (Mat.diagonal inverse)

theorem answered_of_conclude {sums : Contribution α} {found : Snapshot α}
    (penalized : n.penalized state = .ok sums)
    (done : n.machine.conclude (some state) = .ok (some found)) :
    ∃ change inverse, n.Answered state sums found change inverse := by
  obtain ⟨-, finished⟩ := Strategy.result_eq_some done
  change n.finish state = _ at finished
  simp only [finish, penalized, ok_bind, requireFiniteVec_ok, requireFiniteMat_ok,
    requireFinite_ok, Exact.Finite.isFinite_true, Bool.not_true, Bool.false_or] at finished
  by_cases condition : decide (n.conditionBound < DenseSolver.condition sums.hessian) = true
  · simp [condition] at finished
  · have well : DenseSolver.condition sums.hessian ≤ n.conditionBound := by simpa using condition
    simp only [condition, Bool.false_eq_true, if_false] at finished
    obtain ⟨change, solved, finished⟩ := bind_eq_ok.mp finished
    obtain ⟨inverse, inverted, finished⟩ := bind_eq_ok.mp finished
    obtain ⟨model, moved, finished⟩ := bind_eq_ok.mp finished
    obtain ⟨_, -, finished⟩ := bind_eq_ok.mp finished
    cases finished
    exact ⟨change, inverse, rfl, well, solved, inverted, moved, rfl⟩

theorem step_of_conclude {sums : Contribution α} {found : Snapshot α}
    (penalized : n.penalized state = .ok sums)
    (done : n.machine.conclude (some state) = .ok (some found)) :
    ∃ change, DenseSolver.solve sums.hessian sums.gradient = .ok change ∧
      Vec.combine (· - ·) state.model change = .ok found.model := by
  obtain ⟨change, _, answered⟩ := answered_of_conclude penalized done
  exact ⟨change, answered.solved, answered.moved⟩

theorem step_descends (bounded : ∀ x : α, 0 ≤ Scalar.sigmoid x ∧ Scalar.sigmoid x ≤ 1)
    (exp_pos : ∀ x : α, 0 < Scalar.exp x) (size : n.origin.task.dimension = d)
    (reached : n.machine.Reachable (some state)) :
    let weight := n.origin.task.regularization
    (state.rows ≠ 0 → state.model.length = d) ∧
    ∀ w : Fin d → α, state.model = Vec.of w →
      ∃ g H loss, n.penalized state = .ok ⟨Vec.of g, Mat.of H, loss⟩ ∧
        H.IsSymm ∧ (∀ v, weight * (v ⬝ᵥ v) ≤ v ⬝ᵥ H *ᵥ v) ∧ (0 < weight → H.det ≠ 0) ∧
        (Solves H g → ∀ found, n.machine.conclude (some state) = .ok (some found) →
          ∃ w', found.model = Vec.of w' ∧
            g ⬝ᵥ (w' - w) ≤ -(weight * ((w' - w) ⬝ᵥ (w' - w))) ∧
            -(weight * ((w' - w) ⬝ᵥ (w' - w))) ≤ 0) := by
  intro weight
  subst size
  obtain ⟨start, started⟩ := reached.exists_start state rfl
  obtain ⟨sums, collected⟩ := exists_collected exp_pos bounded started reached
  have task : state.task = n.origin.task := collected.task.trans (Strategy.start_fresh started).1
  refine ⟨fun some => collected.model ▸ collected.fits some, fun w model => ?_⟩
  have penalized := penalized_of w state sums (by rw [task]) model collected.closed
  rw [task] at penalized
  have curved : Curved weight (sums.2.2 + weight • 1) := by
    simpa using collected.curved.add (Curved.diagonal weight)
  have nonneg : 0 ≤ weight := n.origin.task.regularization_nonneg
  refine ⟨_, _, _, penalized, curved.symm, curved.form, fun some => curved.det_ne_zero some, ?_⟩
  intro solves found done
  obtain ⟨change, solved, moved⟩ := step_of_conclude penalized done
  obtain ⟨x, rfl, same⟩ := solves change solved
  rw [model, Vec.combine_of, Except.ok.injEq] at moved
  refine ⟨w - x, moved.symm, ?_, ?_⟩
  · rw [sub_sub_cancel_left]
    exact curved.descent same
  · exact neg_nonpos.mpr (mul_nonneg nonneg (dotProduct_self_nonneg (w - x - w)))

theorem conclude_single {n : Newton ℝ} {state : PassState ℝ} {w x y loss : ℝ}
    (penalized : n.penalized state = .ok ⟨[y], [[x]], loss⟩) (low : 1 ≤ x)
    (high : x ≤ Rotation.large) (bound : 1 ≤ n.conditionBound) (taken : state.rows ≠ 0)
    (model : state.model = [w]) :
    ∃ found, n.machine.conclude (some state) = .ok (some found) ∧ found.model = [w - y / x] := by
  have nonzero : x ≠ 0 := by linarith
  have condition : DenseSolver.condition [[x]] = 1 := Rotation.condition_single low high
  have solved : DenseSolver.solve [[x]] [y] = .ok [y / x] := Elimination.solve_single nonzero y
  have inverse : DenseSolver.inverse [[x]] = .ok [[1 / x]] := Elimination.inverse_single nonzero
  have moved : Vec.combine (· - ·) state.model [y / x] = .ok [w - y / x] := by
    simp [model, Vec.combine_of_length_eq]
  change ∃ found, n.strategy.result state = _ ∧ _
  rw [Strategy.result, if_neg taken]
  change ∃ found, (n.finish state >>= _) = _ ∧ _
  simp only [finish, penalized, ok_bind, requireFiniteVec_ok, requireFiniteMat_ok,
    requireFinite_ok, condition, solved, inverse, Exact.Finite.isFinite_true, not_lt.mpr bound,
    moved]
  exact ⟨_, rfl, rfl⟩

def tied : List (Example ℝ) := [⟨[1], .survival 3 true⟩, ⟨[3], .survival 3 false⟩]

theorem scored_tied : scored (fun _ : Fin 1 => (0 : ℝ)) [] (Groups.ofStream tied).all =
    (Real.log 2, fun _ => 1, Matrix.of fun _ _ => 1) := by
  have one : Scalar.exp (0 : ℝ) = 1 := Real.exp_zero
  have groups : (Groups.ofStream tied).all = [tied] := by
    norm_num [Groups.ofStream, Groups.enter, Groups.all, Example.time, Label.number, tied,
      RiskSet.tolerance]
  have weights : s0 (fun _ : Fin 1 => (0 : ℝ)) tied = 2 := by
    norm_num [s0, tied, weight, score, dotProduct, one]
  have firsts : s1 (fun _ : Fin 1 => (0 : ℝ)) tied = fun _ => 4 := by
    ext i
    norm_num [s1, tied, weight, score, dotProduct, one, point, Vec.entries]
  have seconds : s2 (fun _ : Fin 1 => (0 : ℝ)) tied = Matrix.of fun _ _ => 10 := by
    ext i j
    norm_num [s2, tied, weight, score, dotProduct, one, point, Vec.entries, vecMulVec_apply]
  rw [groups, scored, scored, List.nil_append, add_zero, groupTerms_eq, weights, mean, weights,
    firsts, seconds]
  refine Prod.ext ?_ (Prod.ext ?_ ?_)
  · norm_num [died, tied, Example.isDeath, score, dotProduct]
    rfl
  · ext i
    norm_num [died, tied, Example.isDeath, point, Vec.entries]
  · ext i j
    norm_num [died, tied, Example.isDeath, vecMulVec_apply]

theorem step_descends_joined :
    let s : Snapshot ℝ := ⟨.unit .cox, [0], 0, 0, .null, .fresh, none, none, none⟩
    let n : Newton ℝ := ⟨⟨.unit .cox, some s⟩, 1000, rfl, rfl⟩
    ∃ state found, n.machine.Reachable (some state) ∧
      n.penalized state = .ok ⟨[1], [[2]], Real.log 2⟩ ∧
      n.machine.conclude (some state) = .ok (some found) ∧ found.model = [-1 / 2] ∧
      ∃ (g w' : Fin 1 → ℝ) (H : Matrix (Fin 1) (Fin 1) ℝ), Vec.of g = [1] ∧ Mat.of H = [[2]] ∧
        Vec.of w' = [-1 / 2] ∧ H.det ≠ 0 ∧ g ⬝ᵥ w' ≤ -(w' ⬝ᵥ w') := by
  intro s n
  let w : Fin 1 → ℝ := fun _ => 0
  let start : PassState ℝ := ⟨.unit .cox, [0], .fresh, (0 : Share ℝ 1).totals true, 0⟩
  have size : n.origin.task.dimension = 1 := rfl
  have started : n.strategy.start = .ok start :=
    start_resumed (n := n) rfl ⟨rfl, rfl⟩
  have someone : tied ≠ [] := by simp [tied]
  have alike : ∀ e ∈ tied, e.Alike 1 true := by
    simp [tied, Example.Alike, Example.dimension, Label.isSurvival]
  have falling : tied.Pairwise fun a b => b.time ≤ a.time := by
    simp [tied, Example.time, Label.number]
  have folded := fold_cox w Real.exp_pos rfl started size rfl alike (inTime_of_falling falling)
  rw [coxReached, if_neg someone] at folded
  have merged : n.machine.merge (some start) (some (coxState w start tied)) =
      .ok (some (coxState w start tied)) := by
    have neutral := (join_start w size started tied).1
    rw [coxFrom, if_neg someone] at neutral
    change some <$> n.strategy.join start (coxState w start tied) = _
    rw [neutral, map_ok]
  have reached : n.machine.Reachable (some (coxState w start tied)) :=
    .merge (.start started) (Machine.Reachable.empty.fold folded) merged
  have closed := closedSums_cox (n := n) w Real.exp_pos rfl someone
  rw [scored_tied] at closed
  have penalized : n.penalized (coxState w start tied) = .ok ⟨[1], [[2]], Real.log 2⟩ := by
    rw [penalized_of w (coxState w start tied) (Real.log 2, fun _ => 1, Matrix.of fun _ _ => 1) rfl
      rfl closed]
    have weight : (coxState w start tied).task.regularization = 1 := rfl
    rw [weight]
    norm_num [w, Vec.of, Mat.of]
  have taken : (coxState w start tied).rows ≠ 0 := by simp [coxState, tied]
  obtain ⟨found, concluded, moved⟩ := conclude_single penalized (by norm_num)
    (by norm_num [Rotation.large]) (by norm_num [n]) taken rfl
  have moved : found.model = [-1 / 2] := by
    rw [moved]
    norm_num
  obtain ⟨-, descends⟩ := step_descends sigmoid_bounded Real.exp_pos size reached
  obtain ⟨g, H, loss, same, -, -, regular, downhill⟩ := descends w rfl
  rw [penalized, Except.ok.injEq, Contribution.mk.injEq] at same
  obtain ⟨gradient, hessian, -⟩ := same
  have solves : Solves H g := fun answer solved => Elimination.solve_exact solved
  obtain ⟨w', model, below, -⟩ := downhill solves found concluded
  have weight : n.origin.task.regularization = 1 := rfl
  have origin : w' - w = w' := sub_zero w'
  rw [weight, one_mul, origin] at below
  have regular : H.det ≠ 0 := regular (weight ▸ one_pos)
  exact ⟨_, found, reached, penalized, concluded, moved, g, w', H, gradient.symm, hessian.symm,
    model.symm.trans moved, regular, below⟩

end Newton

end Passwise
