import Passwise.Proofs.Alongside
import Passwise.Proofs.Bookkeeping

set_option autoImplicit false

namespace Passwise

variable {α : Type} [Exact α]

namespace Trials

def trial (task : Task α) (previous : Option (Snapshot α)) (stepsize : α) :
    Except Error (Incremental α) := do
  Incremental.ofOrigin ⟨← task.withStepsize stepsize, previous⟩

theorem trial_of {task : Task α} (separable : task.objective ≠ .cox)
    (previous : Option (Snapshot α)) {stepsize : α}
    (admissible : Scalar.isAdmissible stepsize = true) :
    ∃ i, trial task previous stepsize = .ok i ∧
      i.origin =
        ⟨{ task with stepsize := stepsize, stepsize_admissible := admissible }, previous⟩ := by
  have noRiskSet := Objective.usesRiskSet_eq_false separable
  have made := Task.make_of_task
    { task with stepsize := stepsize, stepsize_admissible := admissible }
  rw [trial, Task.withStepsize, made, ok_bind, Incremental.ofOrigin, dif_pos noRiskSet]
  exact ⟨_, rfl, rfl⟩

theorem make_of {task : Task α} (separable : task.objective ≠ .cox)
    (previous : Option (Snapshot α)) {stepsizes : List α} (given : stepsizes ≠ [])
    (admissible : ∀ a ∈ stepsizes, Scalar.isAdmissible a = true) :
    ∃ t, make task stepsizes previous = .ok t ∧ t.task = task ∧ t.stepsizes = stepsizes ∧
      List.Forall₂ (fun a i => trial task previous a = .ok i) stepsizes t.trials := by
  obtain ⟨trials, made, each⟩ := mapM_of_forall₂ (f := trial task previous)
    (R := fun a i => trial task previous a = .ok i) <| List.forall₂_same.mpr fun a member => by
      obtain ⟨i, made, -⟩ := trial_of separable previous (admissible a member)
      exact ⟨i, made, made⟩
  have some : stepsizes.isEmpty = false := by simpa using given
  refine ⟨⟨task, stepsizes, trials⟩, ?_, rfl, rfl, each⟩
  rw [make, some, if_neg Bool.false_ne_true]
  change (stepsizes.mapM (trial task previous) >>= _) = _
  rw [made]
  rfl

omit [Exact α] in
theorem search_of [Scalar α] {t : Trials α} (separable : t.task.objective ≠ .cox)
    {snapshots : List (Snapshot α)} (given : snapshots ≠ [])
    (paired : snapshots.length = t.stepsizes.length)
    (sized : ∀ s ∈ snapshots, s.model.length = t.task.dimension) :
    ∃ search, t.search snapshots = .ok search ∧ search.task = t.task ∧
      search.models = snapshots.map (·.model) := by
  have some : snapshots.map (·.model) ≠ [] := by simpa using given
  have length : t.stepsizes.length = (snapshots.map (·.model)).length := by simp [paired]
  exact Search.exists_make some length (Objective.usesRiskSet_eq_false separable)
    (by simpa using sized)

end Trials

namespace Run

structure Tried (run : Run α) (seed : Option (Snapshot α)) (parts : List (List (Example α)))
    (stepsize : α) (s : Snapshot α) : Prop where
  ran : ∃ i, Trials.trial run.task seed stepsize = .ok i ∧
    i.machine.run run.shape parts = .ok (some s)
  objective : s.task.objective = run.task.objective
  stepsize : s.task.stepsize = stepsize
  regularization : s.task.regularization = run.task.regularization
  model : s.model.length = run.task.dimension
  rows : s.rows = Scalar.ofInt parts.flatten.length

-- The trial at a place, but with the total loss of its model, which is that of no other trial above
-- and of no earlier one equal.
structure BestTrial (run : Run α) (source : Source α) (seed : Option (Snapshot α))
    (parts : List (List (Example α))) (trials : List (Snapshot α)) (j : Nat)
    (found : Snapshot α) : Prop where
  dealt : parts.flatten.Perm source.examples
  tried : List.Forall₂ (run.Tried seed parts) run.stepsizes trials
  chosen : ∃ s, trials[j]? = some s ∧ found = { s with loss := found.loss }
  stepsize : run.stepsizes[j]? = some found.task.stepsize
  rows : found.rows = Scalar.ofInt source.size
  loss : run.task.totalLoss source.examples found.model = .ok found.loss
  least : ∀ (k : Nat) (other : Snapshot α), trials[k]? = some other →
    ∃ loss, run.task.totalLoss source.examples other.model = .ok loss ∧ found.loss ≤ loss ∧
      (k < j → found.loss < loss)

variable [Exact.Finite α] {run : Run α} {source : Source α} {shuffles : Shuffles}
  {seed : Option (Snapshot α)}

theorem trials_tried (plain : run.Plain source shuffles)
    (admissible : ∀ a ∈ run.stepsizes, Scalar.isAdmissible a = true) (given : run.stepsizes ≠ [])
    (fitting : (Origin.mk run.task seed).Fitting) {t : Trials α}
    (made : List.Forall₂ (fun a i => Trials.trial run.task seed a = .ok i) run.stepsizes t.trials)
    {parts : List (List (Example α))} (split : parts.flatten.Perm source.examples) :
    ∃ trials, t.machine.run run.shape parts = .ok (some trials) ∧
      List.Forall₂ (run.Tried seed parts) run.stepsizes trials := by
  have origin {a : α} {i : Incremental α} (tried : Trials.trial run.task seed a = .ok i)
      (accepted : Scalar.isAdmissible a = true) : i.origin =
        ⟨{ run.task with stepsize := a, stepsize_admissible := accepted }, seed⟩ := by
    obtain ⟨i', same, origin⟩ := Trials.trial_of plain.separable seed accepted
    rw [tried, Except.ok.injEq] at same
    exact same ▸ origin
  have fits : t.Fitting run.task.dimension := by
    intro i member
    obtain ⟨a, inside, tried⟩ := exists_of_forall₂ made member
    rw [origin tried (admissible a inside)]
    exact ⟨fitting, rfl⟩
  have trials : t.trials ≠ [] := by
    rintro empty
    have length := made.length_eq
    rw [empty, List.length_nil] at length
    exact given (List.length_eq_zero_iff.mp length)
  have alike : ∀ e ∈ parts.flatten, e.Alike run.task.dimension false :=
    fun e member => plain.alike e (split.mem_iff.mp member)
  have nonempty : parts.flatten ≠ [] := fun empty => plain.nonempty (empty ▸ split).nil_eq.symm
  obtain ⟨snapshots, ran, length, each⟩ := t.run_alone fits trials run.shape alike nonempty
  refine ⟨snapshots, ran, forall₂_of_getElem? (length.trans made.length_eq.symm) ?_⟩
  intro k a here
  obtain ⟨i, place, tried⟩ := getElem?_forall₂ made here
  obtain ⟨s, found, alone, task, model, rows⟩ := each k i place
  rw [origin tried (admissible a (List.mem_of_getElem? here))] at task
  refine ⟨s, found, ⟨i, tried, alone⟩, ?_, ?_, ?_, model, rows⟩
  · rw [task]
  · rw [task]
  · rw [task]

omit [Exact.Finite α] in
theorem bestTrial_of_won (plain : run.Plain source shuffles) {parts : List (List (Example α))}
    (split : parts.flatten.Perm source.examples) {trials : List (Snapshot α)}
    (tried : List.Forall₂ (run.Tried seed parts) run.stepsizes trials) {search : Search α}
    (same : search.task = run.task) (models : search.models = trials.map (·.model))
    {winner : Winner α} (won : search.Won source.examples winner) :
    ∃ s, trials[winner.index]? = some s ∧
      run.BestTrial source seed parts trials winner.index { s with loss := winner.loss } := by
  obtain ⟨s, chosen, model⟩ : ∃ s, trials[winner.index]? = some s ∧ s.model = winner.model := by
    have place := won.model
    rw [models, List.getElem?_map] at place
    exact Option.map_eq_some_iff.mp place
  obtain ⟨a, place, alone⟩ := getElem?_forall₂ tried.flip chosen
  refine ⟨s, chosen, ?_⟩
  constructor
  case dealt => exact split
  case tried => exact tried
  case chosen => exact ⟨s, chosen, rfl⟩
  case stepsize => rw [place, ← alone.stepsize]
  case rows =>
    rw [Source.size, ← split.length_eq]
    exact alone.rows
  case loss =>
    have total := won.loss
    rw [same, ← model] at total
    exact total
  case least =>
    intro k other here
    have candidate : search.models[k]? = some other.model := by
      rw [models, List.getElem?_map, here, Option.map_some]
    obtain ⟨loss, -, total⟩ := Search.getElem?_scores (same ▸ plain.alike) candidate
    obtain ⟨lower, earliest⟩ := won.least k other.model loss candidate total
    rw [same] at total
    exact ⟨loss, total, lower, earliest⟩

omit [Exact α] [Exact.Finite α] in
theorem run_bestTrial [Scalar α] {run : Run α} {source : Source α} {seed : Option (Snapshot α)}
    {t : Trials α} {trials : List (Snapshot α)} {search : Search α} {scored : Winner α}
    {s : Snapshot α} {p middle q : Progress α}
    (made : Trials.make run.task run.stepsizes seed = .ok t)
    (passed : (run.pass source shuffles t.machine).run p = (.ok (some trials), middle))
    (searched : t.search trials = .ok search)
    (scores : (run.pass source shuffles search.machine).run middle = (.ok (some scored), q))
    (chosen : trials[scored.index]? = some s) :
    (run.bestTrial source shuffles seed).run p =
      (.ok (some { s with loss := scored.loss }), q) := by
  rw [bestTrial, made, Update.run_bind_ok (Update.run_ofExcept _ _), Update.run_bind_ok passed]
  dsimp only
  rw [searched, Update.run_bind_ok (Update.run_ofExcept _ _), Update.run_bind_ok scores]
  dsimp only
  rw [chosen]
  rfl

variable [DenseSolver α]

theorem iteration_best_trial (run : Run α) (source : Source α) (shuffles : Shuffles)
    (incremental : run.method = .incremental) (best : run.lineSearch = .bestBall)
    (plain : run.Plain source shuffles) (given : run.stepsizes ≠ [])
    (admissible : ∀ a ∈ run.stepsizes, Scalar.isAdmissible a = true)
    {seed : Option (Snapshot α)} (fitting : (Origin.mk run.task seed).Fitting) (p : Progress α) :
    ∃ parts trials j found q,
      (run.iteration source shuffles seed).run p = (.ok (some found), q) ∧
      run.BestTrial source seed parts trials j found := by
  obtain ⟨t, made, task, stepsizes, each⟩ := Trials.make_of plain.separable seed given admissible
  obtain ⟨parts, middle, split, passed⟩ := plain.exists_pass t.machine p
  obtain ⟨trials, ran, tried⟩ := trials_tried plain admissible given fitting each split
  rw [ran] at passed
  have length : trials.length = run.stepsizes.length := tried.length_eq.symm
  have some : trials ≠ [] := by
    rintro rfl
    exact given (List.length_eq_zero_iff.mp length.symm)
  have sized : ∀ s ∈ trials, s.model.length = run.task.dimension := by
    intro s member
    obtain ⟨a, -, alone⟩ := exists_of_forall₂ tried member
    exact alone.model
  obtain ⟨search, searched, same, models⟩ := Trials.search_of (t := t) (task ▸ plain.separable)
    some (stepsizes ▸ length) (task ▸ sized)
  rw [task] at same
  obtain ⟨winner, won, wins⟩ := search.exists_won plain.nonempty (same ▸ plain.alike)
  obtain ⟨parts', q, split', scored⟩ := plain.exists_pass search.machine middle
  rw [wins run.shape parts' split'] at scored
  obtain ⟨s, chosen, found⟩ := bestTrial_of_won plain split tried same models won
  refine ⟨parts, trials, winner.index, { s with loss := winner.loss }, q, ?_, found⟩
  rw [iteration, if_pos ⟨incremental, best⟩]
  exact run_bestTrial made passed searched scored chosen

theorem iteration_best_trial_pair :
    let run : Run ℝ := ⟨.unit .svm, .incremental, some 0, 3, some 2, .tree, .polakRibiere,
      .bestBall, [1, 1 / 2], 100, 1000⟩
    let source : Source ℝ :=
      ⟨1, false, [⟨[1], .plain 1⟩, ⟨[2], .plain 0⟩], by simp [Example.dimension, Label.isSurvival]⟩
    ∃ parts trials j found q,
      (run.iteration source (fun i => if i = 0 then [1, 0] else [0, 1]) none).run (.fresh true) =
        (.ok (some found), q) ∧
      run.BestTrial source none parts trials j found ∧ trials.length = 2 := by
  intro run source
  have shuffled (i : Nat) : (if i = 0 then [1, 0] else [0, 1]).Perm (List.range source.size) := by
    split_ifs
    · exact .swap 0 1 []
    · exact .refl _
  have plain : run.Plain source (fun i => if i = 0 then [1, 0] else [0, 1]) :=
    ⟨by simp [run, Task.unit], ⟨2, rfl, by decide, shuffled⟩, rfl, rfl, by simp [source]⟩
  have admissible : ∀ a ∈ run.stepsizes, Scalar.isAdmissible a = true := by
    simp [run, Scalar.isAdmissible]
  have fitting : (Origin.mk run.task none).Fitting := trivial
  obtain ⟨parts, trials, j, found, q, done, chosen⟩ := iteration_best_trial run source _ rfl rfl
    plain (by simp [run]) admissible fitting (.fresh true)
  exact ⟨parts, trials, j, found, q, done, chosen, chosen.tried.length_eq.symm⟩

end Run

end Passwise
