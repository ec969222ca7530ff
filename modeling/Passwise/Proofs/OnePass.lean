import Passwise.Proofs.Convergence
import Passwise.Proofs.Descent
import Passwise.Proofs.LineSearch

set_option autoImplicit false

namespace Passwise

open Matrix

variable {α : Type} [Exact α]

namespace Task.Minimum

variable {task : Task α} {examples : List (Example α)} {w w' : Fin task.dimension → α}
  {least least' : α}

theorem lt_of_ne (minimum : task.Minimum examples w least) (other : w' ≠ w) :
    ∃ loss, task.totalLoss examples (Vec.of w') = .ok loss ∧ least < loss := by
  obtain ⟨loss, total, below, alone⟩ := minimum.below w'
  exact ⟨loss, total, lt_of_le_of_ne below fun same => other (alone same.symm)⟩

theorem unique (minimum : task.Minimum examples w least)
    (minimum' : task.Minimum examples w' least') : w' = w := by
  by_contra other
  obtain ⟨loss, total, above⟩ := minimum.lt_of_ne other
  obtain ⟨loss', total', above'⟩ := minimum'.lt_of_ne (Ne.symm other)
  rw [minimum'.here, Except.ok.injEq] at total
  rw [minimum.here, Except.ok.injEq] at total'
  subst total total'
  exact lt_asymm above above'

end Task.Minimum

-- The matrix is regular if it passes for well conditioned, and what is answered for a regular one
-- solves its system.
structure DenseSolver.SolvesAt {d : Nat} [DenseSolver α] (bound : α)
    (m : Matrix (Fin d) (Fin d) α) : Prop where
  regular : condition (Mat.of m) ≤ bound → m.det ≠ 0
  solves : m.det ≠ 0 → ∀ v, Newton.Solves m v

theorem DenseSolver.ExactAt.solvesAt {d : Nat} [DenseSolver α] {bound : α}
    {m : Matrix (Fin d) (Fin d) α} (exact : ExactAt bound m) : SolvesAt bound m where
  regular := exact.regular
  solves some v answer answered := by
    obtain ⟨x, solved, solves⟩ := exact.solves some v
    rw [solved, Except.ok.injEq] at answered
    exact ⟨x, answered.symm, solves⟩

namespace Newton

variable [DenseSolver α] {n : Newton α} {task : Task α} {examples : List (Example α)}
  {shape : Shape} {parts : List (List (Example α))} {found : Snapshot α}

def totals (n : Newton α) (shape : Shape) (parts : List (List (Example α))) :
    Except Error (Contribution α) := do
  let start ← n.strategy.start
  let last ← parts.mapM (n.machine.fold · none) >>= n.machine.combine shape
  n.penalized (last.getD start)

theorem totals_eq (separable : n.objective.usesRiskSet = false) (same : n.origin.task = task)
    {start : PassState α} (started : n.strategy.start = .ok start) {w : Fin task.dimension → α}
    (model : start.model = Vec.of w) (alike : ∀ e ∈ examples, e.Alike task.dimension false)
    (shape : Shape) (split : parts.flatten.Perm examples) :
    n.totals shape parts = .ok {
      loss := task.objective.lossOver task.regularization examples w
      gradient := Vec.of (task.objective.gradientOver task.regularization examples w)
      hessian := Mat.of (task.objective.hessianOver task.regularization examples w) } := by
  subst same
  have all : ∀ e ∈ parts.flatten, e.Alike n.origin.task.dimension false :=
    fun e member => alike e (split.mem_iff.mp member)
  have summing := (additive separable).summing started (model ▸ Vec.length_of w)
  have gathered := summing.combine_eq shape all
  have entries : Vec.entries n.origin.task.dimension start.model = w := by
    rw [model, Vec.entries_of]
  change (parts.mapM (n.machine.fold · none) >>= n.machine.combine shape) = .ok
    (Machine.reached (n.objective.share (Vec.entries n.origin.task.dimension start.model))
      (Share.state start true) parts.flatten) at gathered
  rw [entries, Machine.reached_perm split] at gathered
  have last := (additive separable).reached_getD started (n.objective.share w) examples
  rw [totals, started, ok_bind, gathered, ok_bind]
  exact (congrArg n.penalized last).trans
    (penalized_share (Strategy.start_fresh started).1 model examples)

structure Moves (task : Task α) (examples : List (Example α)) (bound : α) (found : Snapshot α)
    (w : Fin task.dimension → α) (change : Vec α) : Prop where
  alike : ∀ e ∈ examples, e.Alike task.dimension false
  carries : found.task = task
  well : DenseSolver.condition
    (Mat.of (task.objective.hessianOver task.regularization examples w)) ≤ bound
  solved : DenseSolver.solve
    (Mat.of (task.objective.hessianOver task.regularization examples w))
    (Vec.of (task.objective.gradientOver task.regularization examples w)) = .ok change
  moved : Vec.combine (· - ·) (Vec.of w) change = .ok found.model

theorem Moves.start_of_found {bound : α} {w w' : Fin task.dimension → α} {change : Vec α}
    (moves : Moves task examples bound found w change) (model : found.model = Vec.of w')
    (resumes : n.origin = ⟨task, some found⟩) :
    ∃ start, n.strategy.start = .ok start ∧ start.model = Vec.of w' := by
  have previous : n.strategy.origin.previous = some found := congrArg Origin.previous resumes
  have same : n.origin.task = found.task := (congrArg Origin.task resumes).trans moves.carries.symm
  exact ⟨_, Strategy.start_resumed previous
    ⟨congrArg Task.dimension same, congrArg Task.objective same⟩, model⟩

theorem Moves.flat {bound : α} {w : Fin task.dimension → α} {change : Vec α}
    (moves : Moves task examples bound found w change) (ridge : task.objective = .ridge)
    (solves : ∀ v, Solves (task.objective.hessianOver (d := task.dimension)
      task.regularization examples 0) v) :
    ∃ w' : Fin task.dimension → α, found.model = Vec.of w' ∧
      task.objective.gradientOver task.regularization examples w' = 0 := by
  have solved := moves.solved
  rw [Task.hessianOver_eq ridge] at solved
  obtain ⟨x, rfl, system⟩ := solves _ change solved
  have moved := moves.moved
  rw [Vec.combine_of, Except.ok.injEq] at moved
  exact ⟨w - x, moved.symm, (Task.quadratic_lossOver ridge examples).slope_step system⟩

variable [Exact.Finite α]

theorem moves_of_run (separable : n.objective.usesRiskSet = false) (same : n.origin.task = task)
    (split : parts.flatten.Perm examples)
    (done : n.machine.run shape parts = .ok (some found)) :
    ∃ w change, Moves task examples n.conditionBound found w change := by
  subst same
  have alike : ∀ e ∈ examples, e.Alike n.origin.task.dimension false := fun e member =>
    (additive separable).alike_of_run done e (split.mem_iff.mpr member)
  obtain ⟨start, started, fits⟩ := (additive separable).fits_of_run done
  let w := Vec.entries n.origin.task.dimension start.model
  have model : start.model = Vec.of w := (Vec.of_entries fits).symm
  have task : start.task = n.origin.task := (Strategy.start_fresh started).1
  have concluded := ((additive separable).summing started fits).conclude_of_run alike split done
  obtain ⟨change, _, answered⟩ :=
    answered_of_conclude (penalized_share task model examples) concluded
  refine ⟨w, change, ?_⟩
  constructor
  case alike => exact alike
  case carries => exact answered.carries.trans task
  case well => exact answered.well
  case solved => exact answered.solved
  case moved =>
    rw [← model]
    exact answered.moved

theorem run_solves_ridge (same : n.origin.task = task) (ridge : task.objective = .ridge)
    (exact : DenseSolver.SolvesAt n.conditionBound
      (task.objective.hessianOver (d := task.dimension) task.regularization examples 0))
    (split : parts.flatten.Perm examples)
    (done : n.machine.run shape parts = .ok (some found)) :
    ∃ (w : Fin task.dimension → α) (least : α), found.model = Vec.of w ∧
      (∀ n' : Newton α, n'.origin = ⟨task, some found⟩ →
        ∃ start, n'.strategy.start = .ok start ∧ start.model = Vec.of w) ∧
      (∀ (n' : Newton α) (start : PassState α), n'.origin.task = task →
        n'.strategy.start = .ok start → start.model = Vec.of w →
        ∀ shape parts, parts.flatten.Perm examples →
          ∃ H, n'.totals shape parts = .ok ⟨Vec.of (0 : Fin task.dimension → α), H, least⟩) ∧
      (∀ n' : Newton α, n'.origin.task = task → ∀ shape parts found',
        parts.flatten.Perm examples → n'.machine.run shape parts = .ok (some found') →
          found'.model = Vec.of w) ∧
      task.totalLoss examples (Vec.of w) = .ok least ∧
      ∀ w', w' ≠ w →
        ∃ loss, task.totalLoss examples (Vec.of w') = .ok loss ∧ least < loss := by
  have separable (n' : Newton α) (same : n'.origin.task = task) :
      n'.objective.usesRiskSet = false := by
    rw [objective, same, ridge]
    rfl
  obtain ⟨w, change, moves⟩ := moves_of_run (separable n same) same split done
  have well := moves.well
  rw [Task.hessianOver_eq ridge] at well
  have regular := exact.regular well
  obtain ⟨w', model, flat⟩ := moves.flat ridge (exact.solves regular)
  have minimum := Task.minimum_of_flat ridge moves.alike regular flat
  refine ⟨w', _, model, fun n' resumes => moves.start_of_found model resumes,
    fun n' start same' started model' shape' parts' split' => ?_,
    fun n' same' shape' parts' found' split' done' => ?_, minimum.here,
    fun w'' other => minimum.lt_of_ne other⟩
  · have collected :=
      totals_eq (separable n' same') same' started model' moves.alike shape' split'
    rw [flat] at collected
    exact ⟨_, collected⟩
  · obtain ⟨v, change', moves'⟩ := moves_of_run (separable n' same') same' split' done'
    obtain ⟨v', model', flat'⟩ := moves'.flat ridge (exact.solves regular)
    rw [model', minimum.unique (Task.minimum_of_flat ridge moves.alike regular flat')]

theorem run_solves_ridge_pair :
    let at_ (v : Vec ℝ) : Snapshot ℝ := ⟨.unit .ridge, v, 0, 0, .null, .fresh, none, none, none⟩
    let n (v : Vec ℝ) : Newton ℝ := ⟨⟨.unit .ridge, some (at_ v)⟩, 1000, rfl, rfl⟩
    ∃ found H, (n [5]).machine.run .tree [[⟨[2], .plain 3⟩], [⟨[1], .plain 1⟩]] =
        .ok (some found) ∧ found.model = [7 / 6] ∧
      (n [7 / 6]).totals .sequential [Run.pair 2 3] = .ok ⟨[0], H, 11 / 12⟩ := by
  intro at_ n
  have started (w : Fin 1 → ℝ) : (n (Vec.of w)).strategy.start = .ok
      ⟨.unit .ridge, Vec.of w, .fresh, (0 : Share ℝ 1).totals true, 0⟩ :=
    start_resumed (n := n (Vec.of w)) rfl ⟨rfl, rfl⟩
  have hessian (w : Fin 1 → ℝ) : Objective.ridge.hessianOver (1 : ℝ) (Run.pair 2 3) w =
      (Matrix.of fun _ _ => 6 : Matrix (Fin 1) (Fin 1) ℝ) := Run.hessianOver_pair
  have exact (w : Fin 1 → ℝ) :
      DenseSolver.ExactAt 1000 (Objective.ridge.hessianOver (1 : ℝ) (Run.pair 2 3) w) :=
    (hessian w).symm ▸ Run.exactAt_single (by norm_num) 1000
  have split : [[⟨[2], .plain 3⟩], [⟨[1], .plain 1⟩]].flatten.Perm (Run.pair 2 3) := .swap _ _ []
  obtain ⟨-, goes⟩ := (n [5]).run_at (w := fun _ => 5) (started fun _ => 5) rfl rfl
    (by simp [Run.pair]) (Run.alike_pair 2 3) .tree split (exact fun _ => 5)
  have well : DenseSolver.condition (Mat.of
      (Objective.ridge.hessianOver (1 : ℝ) (Run.pair 2 3) fun _ : Fin 1 => 5)) ≤
        (n [5]).conditionBound := by
    rw [hessian, Run.condition_six]
    norm_num [n]
  obtain ⟨found, _, done, -⟩ := goes well
  obtain ⟨w, least, model, -, flat, -, total, below⟩ : ∃ (w : Fin 1 → ℝ) (least : ℝ), _ :=
    run_solves_ridge rfl rfl (exact 0).solvesAt split done
  have here := (Run.totalLoss_pair w).symm.trans total
  rw [Except.ok.injEq] at here
  have same : w = fun _ => 7 / 6 := by
    by_contra other
    obtain ⟨loss, known, above⟩ := below _ (Ne.symm other)
    have known := (Run.totalLoss_pair fun _ => 7 / 6).symm.trans known
    rw [Except.ok.injEq] at known
    linarith [sq_nonneg (w 0 - 7 / 6)]
  subst same
  obtain ⟨H, collected⟩ := flat (n [7 / 6]) _ rfl (started fun _ => 7 / 6) rfl .sequential
    [Run.pair 2 3] (.refl _)
  have value : least = 11 / 12 := by rw [← here]; norm_num
  rw [value] at collected
  exact ⟨found, H, done, model, collected⟩

end Newton

end Passwise
