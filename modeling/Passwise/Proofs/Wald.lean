import Passwise.Proofs.Convergence
import Passwise.Proofs.Descent

set_option autoImplicit false

namespace Passwise

open Matrix

variable {α : Type} {d : Nat}

theorem Mat.diagonal_of (m : Matrix (Fin d) (Fin d) α) :
    diagonal (Mat.of m) = Vec.of fun i => m i i := by
  have rows : (Mat.of m).zipIdx = (List.finRange d).map fun i => (Vec.of (m i), i.val) := by
    apply List.ext_getElem <;> simp [Mat.of, Vec.of]
  have entry (i : Fin d) : (Vec.of (m i))[i.val]? = some (m i i) := by simp [Vec.of]
  rw [diagonal, rows, List.filterMap_map]
  simp only [Function.comp_def, entry, List.filterMap_eq_map']
  exact (List.ofFn_eq_map).symm

variable [Exact α]

theorem Curved.diagonal_inverse_pos {m n : Matrix (Fin d) (Fin d) α} (curved : Curved 0 m)
    (inverse : m * n = 1) (i : Fin d) : 0 < n i i := by
  let unit : Fin d → α := Pi.single i 1
  have back : m *ᵥ (n *ᵥ unit) = unit := by rw [mulVec_mulVec, inverse, one_mulVec]
  have moves : n *ᵥ unit ≠ 0 := by
    intro still
    have entry : (0 : α) = 1 := by
      simpa [still, unit] using congrFun back i
    exact zero_ne_one entry
  have form := curved.form_pos (det_ne_zero_of_right_inverse inverse) moves
  rwa [back, dotProduct_single_one, mulVec_single_one] at form

theorem Estimate.standardErrors_of_pos {diagonal : Vec α} (positive : ∀ x ∈ diagonal, 0 < x) :
    standardErrors diagonal = diagonal.map Scalar.sqrt :=
  List.map_congr_left fun x member => by rw [Exact.atLeast_eq, max_eq_right (positive x member).le]

theorem Estimate.ofSnapshot_of_pos {s : Snapshot α} {diagonal : Vec α}
    (sqrt_pos : ∀ x : α, 0 < x → 0 < Scalar.sqrt x) (known : s.inverseDiagonal = some diagonal)
    (size : s.model.length = diagonal.length) (positive : ∀ x ∈ diagonal, 0 < x)
    (iterations : Option α) :
    ∃ e w, ofSnapshot s iterations = .ok e ∧ e.wald = some w ∧
      w.standardErrors = diagonal.map Scalar.sqrt ∧ (∀ x ∈ w.standardErrors, 0 < x) ∧
      w.statistics = List.zipWith (· / ·) s.model w.standardErrors := by
  have errors := standardErrors_of_pos positive
  have same : s.model.length = (standardErrors diagonal).length := by
    rw [errors, List.length_map, size]
  have roots : ∀ x ∈ standardErrors diagonal, 0 < x := by
    rw [errors]
    intro root member
    obtain ⟨x, inside, rfl⟩ := List.mem_map.mp member
    exact sqrt_pos x (positive x inside)
  unfold ofSnapshot
  simp only [known, Option.mapM_some, Vec.combine_of_length_eq _ same, ok_bind, pure_ok, map_ok]
  exact ⟨_, _, rfl, rfl, errors, roots, rfl⟩

-- The matrix is regular if it passes for well conditioned, and what is answered for a regular one
-- is its inverse.
structure DenseSolver.InvertsAt [DenseSolver α] (bound : α) (m : Matrix (Fin d) (Fin d) α) :
    Prop where
  regular : condition (Mat.of m) ≤ bound → m.det ≠ 0
  inverts : m.det ≠ 0 → ∀ answer, inverse (Mat.of m) = .ok answer →
    ∃ n, answer = Mat.of n ∧ m * n = 1

theorem DenseSolver.InvertsAt.diagonal_pos [DenseSolver α] {bound : α}
    {m : Matrix (Fin d) (Fin d) α} {answer : Mat α} (exact : InvertsAt bound m)
    (curved : Curved 0 m) (well : condition (Mat.of m) ≤ bound)
    (inverted : inverse (Mat.of m) = .ok answer) :
    (Mat.diagonal answer).length = d ∧ ∀ x ∈ Mat.diagonal answer, 0 < x := by
  obtain ⟨n, rfl, same⟩ := exact.inverts (exact.regular well) answer inverted
  rw [Mat.diagonal_of]
  refine ⟨Vec.length_of _, fun x member => ?_⟩
  obtain ⟨i, rfl⟩ := List.mem_ofFn.mp member
  exact curved.diagonal_inverse_pos same i

namespace Newton

variable [Exact.Finite α] [DenseSolver α] {n : Newton α} {state : PassState α}

theorem exists_penalized (bounded : ∀ x : α, 0 ≤ Scalar.sigmoid x ∧ Scalar.sigmoid x ≤ 1)
    (exp_pos : ∀ x : α, 0 < Scalar.exp x) (reached : n.machine.Reachable (some state))
    (taken : state.rows ≠ 0) :
    let size := n.origin.task.dimension
    state.model.length = size ∧
      ∃ (g : Fin size → α) (H : Matrix (Fin size) (Fin size) α) (loss : α),
        n.penalized state = .ok ⟨Vec.of g, Mat.of H, loss⟩ ∧ Curved 0 H := by
  intro size
  obtain ⟨start, started⟩ := reached.exists_start state rfl
  obtain ⟨sums, collected⟩ := exists_collected exp_pos bounded started reached
  have task : state.task = n.origin.task := collected.task.trans (Strategy.start_fresh started).1
  have fits : state.model.length = size := collected.model ▸ collected.fits taken
  have penalized := penalized_of (Vec.entries size state.model) state sums (by rw [task])
    (Vec.of_entries fits).symm collected.closed
  have curved := collected.curved.add (Curved.diagonal state.task.regularization)
  have nonneg : 0 ≤ 0 + state.task.regularization := by
    simpa using state.task.regularization_nonneg
  exact ⟨fits, _, _, _, penalized, curved.mono nonneg⟩

theorem wald_well_defined [DenseSolver.Shaped α]
    (bounded : ∀ x : α, 0 ≤ Scalar.sigmoid x ∧ Scalar.sigmoid x ≤ 1)
    (exp_pos : ∀ x : α, 0 < Scalar.exp x) (sqrt_pos : ∀ x : α, 0 < x → 0 < Scalar.sqrt x)
    (reached : n.machine.Reachable (some state))
    (exact : ∀ sums (H : Matrix (Fin n.origin.task.dimension) (Fin n.origin.task.dimension) α),
      n.penalized state = .ok sums → sums.hessian = Mat.of H →
        DenseSolver.InvertsAt n.conditionBound H)
    {found : Snapshot α} (done : n.machine.conclude (some state) = .ok (some found)) :
    ∃ diagonal, found.inverseDiagonal = some diagonal ∧
      diagonal.length = n.origin.task.dimension ∧ (∀ x ∈ diagonal, 0 < x) ∧
      ∀ iterations, ∃ e w, Estimate.ofSnapshot found iterations = .ok e ∧ e.wald = some w ∧
        w.standardErrors = diagonal.map Scalar.sqrt ∧ (∀ x ∈ w.standardErrors, 0 < x) ∧
        w.statistics = List.zipWith (· / ·) found.model w.standardErrors := by
  have taken : state.rows ≠ 0 := (Strategy.result_eq_some done).1
  obtain ⟨fits, g, H, loss, penalized, curved⟩ := exists_penalized bounded exp_pos reached taken
  obtain ⟨change, inverse, answered⟩ := answered_of_conclude penalized done
  obtain ⟨length, positive⟩ :=
    (exact _ H penalized rfl).diagonal_pos curved answered.well answered.inverted
  have stepped : change.length = n.origin.task.dimension :=
    DenseSolver.Shaped.length_solve (Mat.square_of H) (Vec.length_of g) answered.solved
  have moved : found.model.length = n.origin.task.dimension :=
    Vec.length_combine fits stepped answered.moved
  exact ⟨_, answered.diagonal, length, positive, fun iterations => Estimate.ofSnapshot_of_pos
    sqrt_pos answered.diagonal (moved.trans length.symm) positive iterations⟩

theorem wald_well_defined_tied :
    let s : Snapshot ℝ := ⟨.unit .cox, [0], 0, 0, .null, .fresh, none, none, none⟩
    let n : Newton ℝ := ⟨⟨.unit .cox, some s⟩, 1000, rfl, rfl⟩
    ∃ state found e w, n.machine.Reachable (some state) ∧
      n.machine.conclude (some state) = .ok (some found) ∧ found.model = [-1 / 2] ∧
      found.inverseDiagonal = some [1 / 2] ∧ Estimate.ofSnapshot found none = .ok e ∧
      e.wald = some w ∧ w.standardErrors = [√(1 / 2)] ∧ w.statistics = [-1 / 2 / √(1 / 2)] ∧
      ∀ x ∈ w.standardErrors, 0 < x := by
  intro s n
  let w : Fin 1 → ℝ := fun _ => 0
  let start : PassState ℝ := ⟨.unit .cox, [0], .fresh, (0 : Share ℝ 1).totals true, 0⟩
  let state := coxState w start tied
  have started : n.strategy.start = .ok start :=
    start_resumed (n := n) rfl ⟨rfl, rfl⟩
  have someone : tied ≠ [] := by simp [tied]
  have alike : ∀ e ∈ tied, e.Alike 1 true := by
    simp [tied, Example.Alike, Example.dimension, Label.isSurvival]
  have falling : tied.Pairwise fun a b => b.time ≤ a.time := by
    simp [tied, Example.time, Label.number]
  have folded := fold_cox w Real.exp_pos rfl started rfl rfl alike (inTime_of_falling falling)
  rw [coxReached, if_neg someone] at folded
  have reached : n.machine.Reachable (some state) := Machine.Reachable.empty.fold folded
  have closed := closedSums_cox (n := n) w Real.exp_pos rfl someone
  rw [scored_tied] at closed
  have penalized : n.penalized state = .ok ⟨[1], [[2]], Real.log 2⟩ := by
    have weight : state.task.regularization = 1 := rfl
    rw [penalized_of w state (Real.log 2, fun _ => 1, Matrix.of fun _ _ => 1) rfl rfl closed,
      weight]
    norm_num [w, Vec.of, Mat.of]
  have taken : state.rows ≠ 0 := by simp [state, coxState, tied]
  obtain ⟨found, concluded, moved⟩ := conclude_single penalized (by norm_num)
    (by norm_num [Rotation.large]) (by norm_num [n]) taken rfl
  have moved : found.model = [-1 / 2] := by
    rw [moved]
    norm_num
  obtain ⟨_, _, answered⟩ := answered_of_conclude penalized concluded
  have known : found.inverseDiagonal = some [1 / 2] := by
    have inverted := answered.inverted
    change Elimination.inverse [[2]] = _ at inverted
    rw [Elimination.inverse_single two_ne_zero, Except.ok.injEq] at inverted
    rw [answered.diagonal, ← inverted]
    rfl
  have exact : ∀ sums (H : Matrix (Fin 1) (Fin 1) ℝ), n.penalized state = .ok sums →
      sums.hessian = Mat.of H → DenseSolver.InvertsAt n.conditionBound H := by
    intro sums H same hessian
    refine ⟨fun _ => ?_, fun _ answer answered => Elimination.inverse_exact answered⟩
    rw [penalized, Except.ok.injEq] at same
    rw [← same] at hessian
    have entry : (2 : ℝ) = H 0 0 := by simpa [Mat.of, Vec.of] using hessian
    rw [det_fin_one, ← entry]
    exact two_ne_zero
  have shaped : DenseSolver.Shaped ℝ := Elimination.shaped
  obtain ⟨diagonal, same, -, -, goes⟩ := wald_well_defined sigmoid_bounded Real.exp_pos
    (fun _ => Real.sqrt_pos.mpr) reached exact concluded
  obtain ⟨e, w, estimated, wald, errors, roots, statistics⟩ := goes none
  rw [known, Option.some.injEq] at same
  rw [← same] at errors
  rw [errors, moved] at statistics
  exact ⟨state, found, e, w, reached, concluded, moved, known, estimated, wald, errors, statistics,
    roots⟩

end Newton

end Passwise
