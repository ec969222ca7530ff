import Passwise.Proofs.Quadratic
import Passwise.Proofs.Cox
import Passwise.Proofs.Forward
import Passwise.Proofs.Scoring
import Passwise.Proofs.Solving
import Passwise.Estimate

set_option autoImplicit false

namespace Passwise

open Matrix

variable {α : Type} [Exact α] {d : Nat}

-- The matrix is regular if it passes for well conditioned, and only for a regular one are the
-- answers known to be right.
structure DenseSolver.ExactAt [DenseSolver α] (bound : α) (m : Matrix (Fin d) (Fin d) α) :
    Prop where
  regular : condition (Mat.of m) ≤ bound → m.det ≠ 0
  solves : m.det ≠ 0 → ∀ v, ∃ x, solve (Mat.of m) (Vec.of v) = .ok (Vec.of x) ∧ m *ᵥ x = v
  inverts : m.det ≠ 0 → ∃ n, inverse (Mat.of m) = .ok (Mat.of n) ∧ m * n = 1

omit [Exact α] in
theorem Mat.square_of (m : Matrix (Fin d) (Fin d) α) : (Mat.of m).Square d := by
  refine ⟨Vec.length_of _, fun row member => ?_⟩
  obtain ⟨i, rfl⟩ := List.mem_ofFn.mp member
  exact Vec.length_of _

namespace Newton

variable [DenseSolver α] {n : Newton α}

omit [DenseSolver α] in
theorem penalized_share {start : PassState α} {w : Fin n.origin.task.dimension → α}
    (task : start.task = n.origin.task) (model : start.model = Vec.of w)
    (examples : List (Example α)) :
    let weight := n.origin.task.regularization
    n.penalized (Share.state start true (examples.map (n.objective.share w)).sum) = .ok {
      loss := n.objective.lossOver weight examples w
      gradient := Vec.of (n.objective.gradientOver weight examples w)
      hessian := Mat.of (n.objective.hessianOver weight examples w) } := by
  intro weight
  let total := (examples.map (n.objective.share w)).sum
  have penalty := n.penalty_eq
  obtain ⟨loss, gradient⟩ := n.objective.sum_share examples w
  have hessian := n.objective.sum_share_hessian examples w
  have sums := penalized_of (n := n) w (Share.state start true total)
    (total.1, total.2.1, total.2.2.1) (congrArg Task.dimension task) model rfl
  have carried : (Share.state start true total).task = n.origin.task := task
  have half : Scalar.half * weight * (w ⬝ᵥ w) = weight / 2 * (w ⬝ᵥ w) := by
    rw [Exact.half_eq]
    ring
  rw [sums, carried]
  simp only [total, loss, gradient, hessian, Objective.lossOver, Objective.gradientOver,
    Objective.hessianOver, penalty, Penalty.lossAt, Penalty.gradientAt, half]
  rfl

variable [Exact.Finite α]

structure Steps (task : Task α) (examples : List (Example α)) (found : Snapshot α)
    (w w' : Fin task.dimension → α) : Prop where
  carries : found.task = task
  model : found.model = Vec.of w'
  loss : found.loss = task.objective.lossOver task.regularization examples w
  solves : task.objective.hessianOver task.regularization examples w *ᵥ (w - w') =
    task.objective.gradientOver task.regularization examples w
  left : found.Left
  inverted : ∃ v, found.inverseDiagonal = some v ∧ v.length = task.dimension

theorem finish_refuses {state : PassState α} {sums : Contribution α}
    (penalized : n.penalized state = .ok sums)
    (ill : n.conditionBound < DenseSolver.condition sums.hessian) :
    n.finish state = .error (.illConditioned
      (Scalar.renderBrief (DenseSolver.condition sums.hessian))
      (Scalar.renderBrief n.conditionBound)) := by
  simp [finish, penalized, ill]

theorem finish_of {state : PassState α} {w g : Fin d → α} {m : Matrix (Fin d) (Fin d) α} {loss : α}
    (penalized : n.penalized state = .ok ⟨Vec.of g, Mat.of m, loss⟩)
    (model : state.model = Vec.of w) (exact : DenseSolver.ExactAt n.conditionBound m)
    (well : DenseSolver.condition (Mat.of m) ≤ n.conditionBound) :
    ∃ found x, n.finish state = .ok found ∧ m *ᵥ x = g ∧ found.task = state.task ∧
      found.model = Vec.of (w - x) ∧ found.loss = loss ∧ found.rows = Scalar.ofInt state.rows ∧
      found.method = .text name ∧ ∃ v, found.inverseDiagonal = some v ∧ v.length = d := by
  have regular := exact.regular well
  obtain ⟨x, solved, solves⟩ := exact.solves regular g
  obtain ⟨i, inverted, -⟩ := exact.inverts regular
  have moved : Vec.combine (· - ·) state.model (Vec.of x) = .ok (Vec.of (w - x)) := by
    rw [model, Vec.combine_of]
    rfl
  have notIll : ¬ n.conditionBound < DenseSolver.condition (Mat.of m) := not_lt.mpr well
  simp only [finish, penalized, ok_bind, requireFiniteVec_ok, requireFiniteMat_ok,
    requireFinite_ok, Exact.Finite.isFinite_true, Bool.not_true, Bool.false_or, notIll,
    decide_false, Bool.false_eq_true, if_false, solved, inverted, moved, Memory.nextIteration,
    Exact.operand_eq, pure_ok]
  exact ⟨_, x, rfl, solves, rfl, rfl, rfl, rfl, rfl, _, rfl,
    Mat.length_diagonal (Mat.square_of i)⟩

theorem run_at {start : PassState α} (started : n.strategy.start = .ok start)
    {w : Fin n.origin.task.dimension → α} (model : start.model = Vec.of w)
    (separable : n.objective.usesRiskSet = false)
    {examples : List (Example α)} (nonempty : examples ≠ [])
    (alike : ∀ e ∈ examples, e.Alike n.origin.task.dimension false) (shape : Shape)
    {parts : List (List (Example α))} (split : parts.flatten.Perm examples)
    (exact : DenseSolver.ExactAt n.conditionBound
      (n.objective.hessianOver n.origin.task.regularization examples w)) :
    let condition := DenseSolver.condition
      (Mat.of (n.objective.hessianOver n.origin.task.regularization examples w))
    (n.conditionBound < condition → n.machine.run shape parts = .error
      (.illConditioned (Scalar.renderBrief condition) (Scalar.renderBrief n.conditionBound))) ∧
    (condition ≤ n.conditionBound → ∃ found w', n.machine.run shape parts = .ok (some found) ∧
      Steps n.origin.task examples found w w') := by
  intro condition
  let last := Share.state start true (examples.map (n.objective.share w)).sum
  have task := (Strategy.start_fresh started).1
  have ran : n.machine.run shape parts = some <$> n.finish last :=
    (additive separable).run_of started model nonempty alike shape split
  have penalized := penalized_share task model examples
  refine ⟨fun ill => ?_, fun well => ?_⟩
  · rw [ran, finish_refuses penalized ill]
    rfl
  · obtain ⟨found, x, finished, solves, carries, moved, loss, rows, method, inverted⟩ :=
      finish_of penalized model exact well
    have carries : found.task = n.origin.task := carries.trans task
    refine ⟨found, w - x, by rw [ran, finished]; rfl, carries, moved, loss, ?_, ?_, inverted⟩
    · rw [sub_sub_cancel]
      exact solves
    · refine ⟨⟨.newton, method⟩, ?_⟩
      rw [rows, n.objective.rows_state]
      simpa using nonempty

end Newton

theorem Estimate.ofSnapshot_of {s : Snapshot α} (iterations : Option α)
    (sized : ∀ v, s.inverseDiagonal = some v → v.length = s.model.length) :
    ∃ e, Estimate.ofSnapshot s iterations = .ok e ∧ e.coefficients = s.model := by
  unfold Estimate.ofSnapshot
  cases inverted : s.inverseDiagonal with
  | none => exact ⟨_, rfl, rfl⟩
  | some v =>
    have same : s.model.length = (Estimate.standardErrors v).length := by
      rw [Estimate.standardErrors, List.length_map, sized v inverted]
    simp only [Option.mapM_some, Vec.combine_of_length_eq _ same, ok_bind, pure_ok, map_ok]
    exact ⟨_, rfl, rfl⟩

structure Task.Minimum (task : Task α) (examples : List (Example α))
    (w : Fin task.dimension → α) (least : α) : Prop where
  here : task.totalLoss examples (Vec.of w) = .ok least
  below : ∀ w' : Fin task.dimension → α, ∃ loss,
    task.totalLoss examples (Vec.of w') = .ok loss ∧ least ≤ loss ∧ (loss = least → w' = w)

namespace Task

variable {task : Task α} (ridge : task.objective = .ridge) (examples : List (Example α))

include ridge

theorem quadratic_lossOver :
    Quadratic (task.objective.lossOver task.regularization examples)
      (task.objective.gradientOver task.regularization examples)
      (task.objective.hessianOver (d := task.dimension) task.regularization examples 0) := by
  rw [ridge]
  exact Objective.quadratic_lossOver task.regularization examples

theorem curved_hessianOver :
    Curved 0
      (task.objective.hessianOver (d := task.dimension) task.regularization examples 0) := by
  rw [ridge]
  exact Objective.curved_hessianOver examples task.regularization_nonneg

theorem hessianOver_eq (w : Fin task.dimension → α) :
    task.objective.hessianOver task.regularization examples w =
      task.objective.hessianOver task.regularization examples 0 := by
  rw [ridge]
  rfl

variable {examples} (alike : ∀ e ∈ examples, e.Alike task.dimension false)
  (regular : (task.objective.hessianOver (d := task.dimension)
    task.regularization examples 0).det ≠ 0) {w : Fin task.dimension → α}

include alike regular in
theorem minimum_of_flat
    (flat : task.objective.gradientOver task.regularization examples w = 0) :
    task.Minimum examples w (task.objective.lossOver task.regularization examples w) := by
  have total := totalLoss_of (by rw [ridge]; rfl) alike
  refine ⟨total w, fun w' => ⟨_, total w', ?_⟩⟩
  exact (quadratic_lossOver ridge examples).least_of_flat (curved_hessianOver ridge examples)
    regular flat w'

end Task

namespace Run

structure Squared (run : Run α) (source : Source α) (shuffles : Shuffles) : Prop extends
    run.Plain source shuffles where
  newton : run.method = .newton
  ridge : run.task.objective = .ridge
  dense : (run.task.dimension : Int) ≤ run.sizeBound

def hessian (run : Run α) (examples : List (Example α)) :
    Matrix (Fin run.task.dimension) (Fin run.task.dimension) α :=
  run.task.objective.hessianOver run.task.regularization examples 0

namespace Squared

variable {run : Run α} {source : Source α} {shuffles : Shuffles}

theorem optimizer_of (squared : run.Squared source shuffles) (seed : Option (Snapshot α)) :
    ∃ curved smooth, run.optimizer seed =
      .ok (.newton ⟨⟨run.task, seed⟩, run.conditionBound, curved, smooth⟩) := by
  have curved : run.task.objective.hasCurvature = true := by rw [squared.ridge]; rfl
  have smooth : run.task.penalty.smooth = true := by rw [Task.penalty, squared.ridge]; rfl
  have small : ¬ run.sizeBound < run.task.dimension := not_lt.mpr squared.dense
  refine ⟨curved, smooth, ?_⟩
  simp only [optimizer, squared.newton, Newton.make, Origin.make, ok_bind, Newton.ofOrigin,
    dif_pos curved, dif_pos smooth, if_neg small]
  rfl

theorem hessianOver_eq (squared : run.Squared source shuffles)
    (w : Fin run.task.dimension → α) :
    run.task.objective.hessianOver run.task.regularization source.examples w =
      run.hessian source.examples :=
  Task.hessianOver_eq squared.ridge source.examples w

theorem fitting_of {found : Snapshot α} {w w' : Fin run.task.dimension → α}
    (steps : Newton.Steps run.task source.examples found w w') :
    (Origin.mk run.task (some found)).Fitting := by
  have model : found.model.length = run.task.dimension := by rw [steps.model, Vec.length_of]
  exact ⟨by rw [steps.carries], by rw [steps.carries], model⟩

theorem flat_of_steps (squared : run.Squared source shuffles) {found : Snapshot α}
    {w w' : Fin run.task.dimension → α}
    (steps : Newton.Steps run.task source.examples found w w') :
    run.task.objective.gradientOver run.task.regularization source.examples w' = 0 := by
  have solves := steps.solves
  rw [squared.hessianOver_eq] at solves
  have flat := (Task.quadratic_lossOver squared.ridge source.examples).slope_step solves
  rwa [sub_sub_cancel] at flat

theorem eq_of_flat (squared : run.Squared source shuffles)
    (regular : (run.hessian source.examples).det ≠ 0) {found : Snapshot α}
    {w w' : Fin run.task.dimension → α}
    (flat : run.task.objective.gradientOver run.task.regularization source.examples w = 0)
    (steps : Newton.Steps run.task source.examples found w w') : w' = w := by
  have solves := steps.solves
  rw [squared.hessianOver_eq, flat] at solves
  have still := eq_zero_of_mulVec_eq_zero regular solves
  exact (sub_eq_zero.mp still).symm

end Squared

structure Settles (run : Run α) (examples : List (Example α)) (w : Fin run.task.dimension → α)
    (o : Outcome α) (q : Progress α) : Prop where
  reason : o.reason = .converged
  snapshot : ∃ s, o.snapshot = some s ∧ Newton.Steps run.task examples s w w
  logged : ∃ entry, q.log.getLast? = some entry ∧
    entry.loss = run.task.objective.lossOver run.task.regularization examples w

variable [DenseSolver α] [Exact.Finite α]

namespace Squared

variable {run : Run α} {source : Source α} {shuffles : Shuffles}

theorem iteration_of (squared : run.Squared source shuffles)
    (exact : DenseSolver.ExactAt run.conditionBound (run.hessian source.examples))
    {seed : Option (Snapshot α)} (fitting : (Origin.mk run.task seed).Fitting) (p : Progress α) :
    let condition := DenseSolver.condition (Mat.of (run.hessian source.examples))
    ∃ w q, (∀ s v, seed = some s → s.model = Vec.of v → w = v) ∧
      (run.conditionBound < condition → (run.iteration source shuffles seed).run p =
        (.error (.illConditioned (Scalar.renderBrief condition)
          (Scalar.renderBrief run.conditionBound)), q)) ∧
      (condition ≤ run.conditionBound → ∃ found w',
        (run.iteration source shuffles seed).run p = (.ok (some found), q) ∧
        Newton.Steps run.task source.examples found w w') := by
  intro condition
  obtain ⟨curved, smooth, made⟩ := squared.optimizer_of seed
  let n : Newton α := ⟨⟨run.task, seed⟩, run.conditionBound, curved, smooth⟩
  obtain ⟨w, started⟩ : ∃ w : Fin run.task.dimension → α, n.strategy.start =
      .ok ⟨run.task, Vec.of w, n.origin.memory, n.strategy.totals, 0⟩ :=
    Strategy.start_of (s := n.strategy) fitting
  obtain ⟨parts, q, split, passed⟩ := squared.exists_pass n.machine p
  have separable := Objective.usesRiskSet_eq_false squared.separable
  have same : n.objective.hessianOver n.origin.task.regularization source.examples w =
      run.hessian source.examples := squared.hessianOver_eq w
  obtain ⟨ill, well⟩ := n.run_at started rfl separable squared.nonempty squared.alike
    run.shape split (same ▸ exact)
  rw [same] at ill well
  have begins : (run.iteration source shuffles seed).run p =
      (n.machine.run run.shape parts, q) := by
    rw [run_iteration (by simp [squared.newton]) made]
    exact passed
  refine ⟨w, q, fun s v resumed model => ?_, fun above => ?_, fun below => ?_⟩
  · have own := Strategy.model_of_start (s := n.strategy) resumed started
    rw [model] at own
    exact Vec.of_injective own
  · rw [begins, ill above]
  · obtain ⟨found, w', ran, steps⟩ := well below
    exact ⟨found, w', by rw [begins, ran], steps⟩

variable (squared : run.Squared source shuffles)
  (exact : DenseSolver.ExactAt run.conditionBound (run.hessian source.examples))
  (well : DenseSolver.condition (Mat.of (run.hessian source.examples)) ≤ run.conditionBound)
  {tolerance : α} (known : run.tolerance = some tolerance)

include squared exact well known in
theorem iterate_steps (k left : Nat) {seed : Option (Snapshot α)}
    (baseline : Option (Snapshot α)) (fitting : (Origin.mk run.task seed).Fitting)
    (p : Progress α) :
    ∃ w w' step kept, (∀ s v, seed = some s → s.model = Vec.of v → w = v) ∧
      Newton.Steps run.task source.examples step.found w w' ∧
      step.change = step.found.changeFrom baseline ∧
      (∃ entry, kept.log.getLast? = some entry ∧ entry.loss = step.found.loss) ∧
      (run.iterate source shuffles k seed baseline (left + 1)).run p =
        if run.settled step = true then (.ok ⟨.converged, k, some step.found⟩, kept)
        else (run.iterate source shuffles (k + 1) (some step.found) (some step.found) left).run
          kept := by
  obtain ⟨w, iterated, resumes, -, goes⟩ := squared.iteration_of exact fitting p
  obtain ⟨found, w', finds, steps⟩ := goes well
  have moves : (run.next source shuffles found).run iterated = (.ok (found, none), iterated) := by
    rw [next, if_neg (by simp [squared.newton])]
    rfl
  obtain ⟨step, kept, same, -, change, trace, runs⟩ := iterate_of_found k left
    baseline finds moves steps.left steps.left known
  subst same
  have logged : kept.log = p.log ++ [step.entry k] := (trace [] kept (.nil _ _ _ _)).log_eq
  exact ⟨w, w', step, kept, resumes, steps, change, ⟨_, by rw [logged, List.getLast?_concat], rfl⟩,
    runs⟩

variable {s : Snapshot α} {w : Fin run.task.dimension → α}
  (fitting : (Origin.mk run.task (some s)).Fitting) (model : s.model = Vec.of w)
  (flat : run.task.objective.gradientOver run.task.regularization source.examples w = 0)

include squared exact well known fitting model flat in
theorem iterate_stays (k left : Nat) (baseline : Option (Snapshot α)) (p : Progress α) :
    ∃ found kept, Newton.Steps run.task source.examples found w w ∧
      (run.Settles source.examples w ⟨.converged, k, some found⟩ kept) ∧
      (run.iterate source shuffles k (some s) baseline (left + 1)).run p =
        if (found.changeFrom baseline).any (decide <| · < tolerance) = true then
          (.ok ⟨.converged, k, some found⟩, kept)
        else (run.iterate source shuffles (k + 1) (some found) (some found) left).run kept := by
  obtain ⟨start, w', step, kept, resumes, steps, change, ⟨entry, last, loss⟩, runs⟩ :=
    squared.iterate_steps exact well known k left baseline fitting p
  obtain rfl : start = w := resumes s w rfl model
  obtain rfl : w' = start := squared.eq_of_flat (exact.regular well) flat steps
  rw [settled, known, Option.any_some, change] at runs
  exact ⟨step.found, kept, steps, ⟨rfl, ⟨_, rfl, steps⟩, entry, last, loss.trans steps.loss⟩, runs⟩

include squared exact well known fitting model flat in
theorem iterate_settles (positive : 0 < tolerance)
    (some : run.task.objective.lossOver run.task.regularization source.examples w ≠ 0)
    (k left : Nat) (baseline : Option (Snapshot α)) (p : Progress α) :
    ∃ o q, (run.iterate source shuffles k (.some s) baseline (left + 2)).run p = (.ok o, q) ∧
      run.Settles source.examples w o q ∧ (o.iterations = k ∨ o.iterations = k + 1) := by
  obtain ⟨found, kept, steps, settles, runs⟩ := squared.iterate_stays exact well known fitting
    model flat k (left + 1) baseline p
  split_ifs at runs with stops
  · exact ⟨_, kept, runs, settles, .inl rfl⟩
  · obtain ⟨found', kept', steps', settles', runs'⟩ := squared.iterate_stays exact well known
      (fitting_of steps) steps.model flat (k + 1) left (.some found) kept
    have same : found'.loss = found.loss := steps'.loss.trans steps.loss.symm
    rw [Snapshot.changeFrom_same same (steps.loss ▸ some), Option.any_some, if_pos (by simpa)]
      at runs'
    exact ⟨_, kept', runs.trans runs', settles', .inr rfl⟩

end Squared

theorem fit_ends_at_minimum (run : Run α) (source : Source α) (shuffles : Shuffles)
    (previous : Option (Snapshot α)) (squared : run.Squared source shuffles)
    (fitting : (Origin.mk run.task previous).Fitting)
    (exact : DenseSolver.ExactAt run.conditionBound (run.hessian source.examples))
    {tolerance : α} (known : run.tolerance = some tolerance) (positive : 0 < tolerance)
    (enough : 3 ≤ run.maxIterations) (p : Progress α) :
    let condition := DenseSolver.condition (Mat.of (run.hessian source.examples))
    (run.conditionBound < condition → ∃ cause q,
      (run.fit source shuffles previous).run p = (.error cause, q) ∧ cause.family = .numeric ∧
        q.shown = p.shown) ∧
    (condition ≤ run.conditionBound → ∃ w least, run.task.Minimum source.examples w least ∧
      (least ≠ 0 → ∃ o q s e entry,
        (run.fit source shuffles previous).run p = (.ok o, q) ∧
        o.reason = .converged ∧ (o.iterations = 2 ∨ o.iterations = 3) ∧
        o.snapshot = some s ∧ s.model = Vec.of w ∧
        Estimate.ofSnapshot s (some (Scalar.ofNat o.iterations)) = .ok e ∧
        e.coefficients = Vec.of w ∧
        q.log.getLast? = some entry ∧ entry.loss = least)) := by
  intro condition
  obtain ⟨left, all⟩ : ∃ left, run.maxIterations = left + 3 := Nat.exists_eq_add_of_le' enough
  rw [fit, all]
  refine ⟨fun ill => ?_, fun well => ?_⟩
  · obtain ⟨w, q, -, refuses, -⟩ := squared.iteration_of exact fitting p
    exact ⟨_, q, iterate_of_error (refuses ill), rfl,
      (iteration_keeps previous).of_run (refuses ill)⟩
  · obtain ⟨w, w', step, kept, -, steps, change, -, runs⟩ :=
      squared.iterate_steps exact well known 1 (left + 2) none fitting p
    have flat := squared.flat_of_steps steps
    refine ⟨w', _, Task.minimum_of_flat squared.ridge squared.alike (exact.regular well) flat,
      fun some => ?_⟩
    -- There is nothing yet that the first loss could be compared with.
    have goes : run.settled step = false := by
      rw [settled, known, Option.any_some, change]
      rfl
    rw [goes, if_neg Bool.false_ne_true] at runs
    obtain ⟨o, q, ends, settles, count⟩ := squared.iterate_settles exact well known
      (Squared.fitting_of steps) steps.model flat positive some 2 left (.some step.found) kept
    obtain ⟨s, ended, stays⟩ := settles.snapshot
    obtain ⟨entry, last, loss⟩ := settles.logged
    obtain ⟨v, inverse, size⟩ := stays.inverted
    obtain ⟨e, estimated, coefficients⟩ := Estimate.ofSnapshot_of (s := s)
      (.some (Scalar.ofNat o.iterations)) fun u known => by
        rw [stays.model, Vec.length_of, ← size]
        rw [inverse, Option.some.injEq] at known
        rw [known]
    exact ⟨o, q, s, e, entry, runs.trans ends, settles.reason, count, ended, stays.model, estimated,
      coefficients.trans stays.model, last, loss⟩

theorem exactAt_single {x : ℝ} (some : x ≠ 0) (bound : ℝ) :
    DenseSolver.ExactAt bound (Matrix.of fun _ _ => x : Matrix (Fin 1) (Fin 1) ℝ) where
  regular _ := by simpa using some
  solves _ v := by
    refine ⟨fun i => v i / x, Elimination.solve_single some (v 0), ?_⟩
    ext i
    simp [mulVec, dotProduct, mul_div_cancel₀, some, Subsingleton.elim i 0]
  inverts _ := by
    refine ⟨Matrix.of fun _ _ => 1 / x, Elimination.inverse_single some, ?_⟩
    ext i j
    simp [Matrix.mul_apply, Matrix.one_apply, some, Subsingleton.elim i j]

def pair (x y : ℝ) : List (Example ℝ) := [⟨[1], .plain 1⟩, ⟨[x], .plain y⟩]

theorem alike_pair (x y : ℝ) : ∀ e ∈ pair x y, e.Alike 1 false := by
  simp [pair, Example.Alike, Example.dimension, Label.isSurvival]

theorem hessianOver_pair : Objective.ridge.hessianOver (1 : ℝ) (pair 2 3) 0 =
    (Matrix.of fun _ _ => 6 : Matrix (Fin 1) (Fin 1) ℝ) := by
  have sum : Objective.ridge.hessianOver (1 : ℝ) (pair 2 3) 0 =
      (vecMulVec (Vec.entries 1 [1]) (Vec.entries 1 [1]) +
        (vecMulVec (Vec.entries 1 [2]) (Vec.entries 1 [2]) + 0) + (1 : ℝ) • 1 :
          Matrix (Fin 1) (Fin 1) ℝ) := rfl
  rw [sum]
  ext i j
  norm_num [vecMulVec_apply, Vec.entries, Subsingleton.elim i 0, Subsingleton.elim j 0]

theorem condition_six :
    DenseSolver.condition (Mat.of (Matrix.of fun _ _ => 6 : Matrix (Fin 1) (Fin 1) ℝ)) = 1 :=
  Rotation.condition_single (by norm_num) (by norm_num [Rotation.large])

theorem totalLoss_pair (w : Fin 1 → ℝ) :
    (Task.unit .ridge).totalLoss (pair 2 3) (Vec.of w) = .ok (3 * (w 0 - 7 / 6) ^ 2 + 11 / 12) := by
  rw [Task.totalLoss_of (d := 1) rfl (alike_pair 2 3)]
  norm_num [Objective.lossOver, Objective.lossAt, Objective.penalty, Penalty.lossAt, pair,
    Task.unit, Vec.entries, dotProduct, Exact.half_eq, Label.number]
  ring

theorem minimum_pair {w : Fin 1 → ℝ} {least : ℝ}
    (minimum : (Task.unit .ridge).Minimum (pair 2 3) w least) :
    w = (fun _ => 7 / 6) ∧ least = 11 / 12 := by
  obtain ⟨there, total, below, alone⟩ := minimum.below fun _ => 7 / 6
  have here := (totalLoss_pair w).symm.trans minimum.here
  have total := (totalLoss_pair fun _ => 7 / 6).symm.trans total
  rw [Except.ok.injEq] at here total
  have value : least = 11 / 12 := by linarith [sq_nonneg (w 0 - 7 / 6)]
  exact ⟨(alone (by rw [← total, value]; norm_num)).symm, value⟩

theorem fit_ends_at_minimum_pair :
    let run : Run ℝ := ⟨.unit .ridge, .newton, some (1 / 1000), 5, some 2, .tree, .polakRibiere,
      .fixed, [], 100, 1000⟩
    let source : Source ℝ :=
      ⟨1, false, [⟨[1], .plain 1⟩, ⟨[2], .plain 3⟩], by simp [Example.dimension, Label.isSurvival]⟩
    ∃ o q s entry, (run.fit source (fun _ => [1, 0]) none).run (.fresh true) = (.ok o, q) ∧
      o.reason = .converged ∧ (o.iterations = 2 ∨ o.iterations = 3) ∧ o.snapshot = some s ∧
      s.model = [7 / 6] ∧ q.log.getLast? = some entry ∧ entry.loss = 11 / 12 := by
  intro run source
  have squared : run.Squared source (fun _ => [1, 0]) :=
    { separable := by simp [run, Task.unit]
      counted := ⟨2, rfl, by decide, fun _ => .swap 0 1 []⟩
      survival := rfl
      dimension := rfl
      nonempty := by simp [source]
      newton := rfl
      ridge := rfl
      dense := by decide }
  have hessian : run.hessian source.examples =
      (Matrix.of fun _ _ => 6 : Matrix (Fin 1) (Fin 1) ℝ) := hessianOver_pair
  have exact : DenseSolver.ExactAt run.conditionBound (run.hessian source.examples) :=
    hessian ▸ exactAt_single (by norm_num) _
  have well : DenseSolver.condition (Mat.of (run.hessian source.examples)) ≤
      run.conditionBound := by
    rw [hessian]
    exact condition_six.trans_le (by norm_num [run])
  obtain ⟨-, ends⟩ := fit_ends_at_minimum run source (fun _ => [1, 0]) none squared
    trivial exact rfl (by norm_num) (by decide) (.fresh true)
  obtain ⟨w, least, minimum, ends⟩ : ∃ (w : Fin 1 → ℝ) (least : ℝ), _ ∧ _ := ends well
  obtain ⟨same, value⟩ := minimum_pair minimum
  obtain ⟨o, q, s, e, entry, ended, reason, count, snapshot, model, -, -, last, logged⟩ :=
    ends (by rw [value]; norm_num)
  refine ⟨o, q, s, entry, ended, reason, count, snapshot, ?_, last, logged.trans value⟩
  rw [model, same]
  rfl

end Run

end Passwise
