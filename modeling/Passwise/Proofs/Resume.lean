import Passwise.Run.Fit
import Passwise.Proofs.Agreement

set_option autoImplicit false

namespace Passwise

variable {α : Type} [Scalar α]

-- Two snapshots that a pass cannot tell apart when it resumes from them.
structure Snapshot.Resumes (s s' : Snapshot α) : Prop where
  task : s'.task = s.task
  model : s'.model = s.model
  memory : s'.memory = s.memory

theorem Origin.start_resumes (task : Task α) {s s' : Snapshot α} (same : s.Resumes s') :
    Origin.start ⟨task, some s'⟩ = Origin.start ⟨task, some s⟩ := by
  simp only [Origin.start, same.task, same.model, same.memory]

theorem Strategy.machine_congr {s s' : Strategy α} (task : s'.origin.task = s.origin.task)
    (start : s'.origin.start = s.origin.start) (totals : s'.totals = s.totals)
    (step : s'.step = s.step) (joined : s'.joined = s.joined) (finish : s'.finish = s.finish) :
    s'.machine = s.machine := by
  have accepts : s'.accepts = s.accepts := by
    funext e
    simp only [Strategy.accepts, task]
  have starts : s'.start = s.start := by simp only [Strategy.start, start, totals]
  have absorbs : s'.absorb = s.absorb := by
    funext e
    simp only [Strategy.absorb, step]
  have joins : s'.join = s.join := by
    funext left right
    simp only [Strategy.join, joined]
  have results : s'.result = s.result := by
    funext state
    simp only [Strategy.result, finish]
  simp only [Strategy.machine, accepts, starts, absorbs, joins, results]

variable {s s' : Snapshot α}

theorem Incremental.machine_resumes (same : s.Resumes s') (task : Task α) :
    machine <$> ofOrigin ⟨task, some s'⟩ = machine <$> ofOrigin ⟨task, some s⟩ := by
  unfold ofOrigin
  dsimp only
  split_ifs with separable
  · exact congrArg Except.ok
      (Strategy.machine_congr rfl (Origin.start_resumes task same) rfl rfl rfl rfl)
  · rfl

theorem Conjugate.machine_resumes (same : s.Resumes s') (task : Task α) (beta : BetaRule) :
    machine <$> ofOrigin ⟨task, some s'⟩ beta = machine <$> ofOrigin ⟨task, some s⟩ beta := by
  unfold ofOrigin
  dsimp only
  split_ifs with separable
  · exact congrArg Except.ok
      (Strategy.machine_congr rfl (Origin.start_resumes task same) rfl rfl rfl rfl)
  · rfl

theorem Newton.machine_resumes [DenseSolver α] (same : s.Resumes s') (task : Task α)
    (sizeBound : Int) (conditionBound : α) :
    machine <$> ofOrigin ⟨task, some s'⟩ sizeBound conditionBound =
      machine <$> ofOrigin ⟨task, some s⟩ sizeBound conditionBound := by
  unfold ofOrigin
  dsimp only
  split_ifs with curved smooth large
  · rfl
  · exact congrArg Except.ok
      (Strategy.machine_congr rfl (Origin.start_resumes task same) rfl rfl rfl rfl)
  · rfl
  · rfl

theorem Optimizer.machine_congr [DenseSolver α] {β : Type} {wrap : β → Optimizer α}
    {x x' : Except Error β}
    (same : (fun b => (wrap b).machine) <$> x' = (fun b => (wrap b).machine) <$> x) :
    machine <$> wrap <$> x' = machine <$> wrap <$> x := by
  rwa [← LawfulFunctor.comp_map, ← LawfulFunctor.comp_map]

theorem Run.optimizer_resumes [DenseSolver α] (run : Run α) (same : s.Resumes s') :
    Optimizer.machine <$> run.optimizer (some s') =
      Optimizer.machine <$> run.optimizer (some s) := by
  unfold optimizer
  cases run.method with
  | incremental => exact Optimizer.machine_congr (Incremental.machine_resumes same run.task)
  | conjugate => exact Optimizer.machine_congr (Conjugate.machine_resumes same run.task run.beta)
  | newton =>
    exact Optimizer.machine_congr
      (Newton.machine_resumes same run.task run.sizeBound run.conditionBound)

namespace Trials

theorem machine_congr {t t' : Trials α}
    (machines : t'.trials.map (·.machine) = t.trials.map (·.machine)) : t'.machine = t.machine := by
  have starts (t : Trials α) : t.start = (t.trials.map (·.machine)).mapM (·.start) := by
    rw [List.mapM_map]
    rfl
  have absorbs (t : Trials α) (e : Example α) : t.absorb e = Update.each fun k =>
      match (t.trials.map (·.machine))[k]? with
      | none => Pure.pure ()
      | some m => Update.ofExcept (m.accepts e) >>= fun _ => m.absorb e := by
    unfold absorb
    congr 1
    funext k
    rw [List.getElem?_map]
    cases t.trials[k]? <;> rfl
  have joins (t : Trials α) (left right : List (PassState α)) : t.join left right =
      ((t.trials.map (·.machine)).zip (left.zip right)).mapM fun (m, a, b) => m.join a b := by
    rw [List.zip_map_left, List.mapM_map]
    rfl
  have results (t : Trials α) (states : List (PassState α)) : t.result states = (do
      let snapshots ← ((t.trials.map (·.machine)).zip states).mapM fun (m, state) => m.result state
      return snapshots.mapM id) := by
    rw [List.zip_map_left, List.mapM_map]
    rfl
  unfold machine
  congr 1
  · rw [starts, starts, machines]
  · funext e
    rw [absorbs, absorbs, machines]
  · funext left right
    rw [joins, joins, machines]
  · funext states
    rw [results, results, machines]

theorem make_resumes (same : s.Resumes s') (task : Task α) (stepsizes : List α) :
    Agree (fun t' t => Trials.machine t' = t.machine ∧ t'.search = t.search)
      (make task stepsizes (some s')) (make task stepsizes (some s)) := by
  unfold make
  split_ifs with none
  · exact .error _
  · have machines : ∀ step ∈ stepsizes,
        Incremental.machine <$> (do Incremental.ofOrigin ⟨← task.withStepsize step, some s'⟩) =
          Incremental.machine <$> (do Incremental.ofOrigin ⟨← task.withStepsize step, some s⟩) := by
      intro step _
      cases task.withStepsize step with
      | error cause => rfl
      | ok trial => exact Incremental.machine_resumes same trial
    have trials := mapM_map_congr machines
    have agree := Agree.of_map trials
    refine Agree.bind agree fun made' made machines => ?_
    exact .ok ⟨machine_congr machines, rfl⟩

end Trials

theorem Run.iteration_resumes [DenseSolver α] (run : Run α) (source : Source α)
    (shuffles : Shuffles) (same : s.Resumes s') :
    run.iteration source shuffles (some s') = run.iteration source shuffles (some s) := by
  unfold iteration
  split_ifs
  · refine Update.ofExcept_bind_congr (Trials.make_resumes same run.task run.stepsizes) ?_
    rintro t' t ⟨machine, search⟩
    rw [machine, search]
  · refine Update.ofExcept_bind_congr (Agree.of_map (run.optimizer_resumes same)) ?_
    intro o' o machine
    rw [machine]

end Passwise
