import Passwise.Proofs.Reals
import Passwise.Proofs.Agreement
import Passwise.Proofs.Uniform
import Passwise.Run.Fit

set_option autoImplicit false

namespace Passwise

variable {α : Type} [Exact α]

theorem pass_eq_unsplit [DenseSolver α] {n : Nat} {survival : Bool}
    {parts : List (List (Example α))} {examples : List (Example α)}
    (split : parts.flatten.Perm examples) (alike : ∀ e ∈ examples, e.Alike n survival)
    (shape shape' : Shape) :
    (∀ c : Conjugate α, c.machine.run shape parts = c.machine.run shape' [examples]) ∧
    (∀ m : Newton α, m.objective ≠ .cox →
      m.machine.run shape parts = m.machine.run shape' [examples]) ∧
    ∀ s : Search α, s.machine.run shape parts = s.machine.run shape' [examples] := by
  have all : ∀ e ∈ parts.flatten, e.Alike n survival := fun e member =>
    alike e (split.mem_iff.mp member)
  have whole : parts.flatten.Perm [examples].flatten := by simpa using split
  refine ⟨fun c => ?_, fun m separable => ?_, fun s => ?_⟩
  · exact c.additive.uniform.run_eq_run all whole shape shape'
  · have noRiskSet := Objective.usesRiskSet_eq_false separable
    exact (Newton.additive noRiskSet).uniform.run_eq_run all whole shape shape'
  · exact s.uniform_machine.run_eq_run all whole shape shape'

theorem pass_eq_unsplit_pair :
    let heavy : Example ℝ := ⟨[3], .plain 1⟩
    let light : Example ℝ := ⟨[2], .plain 5⟩
    let c : Conjugate ℝ := ⟨⟨.unit .lasso, none⟩, .polakRibiere, rfl⟩
    let m : Newton ℝ := ⟨⟨.unit .ridge, none⟩, 1000, rfl, rfl⟩
    let s : Search ℝ :=
      ⟨.unit .logistic, [[0], [1]], none, by simp, by simp, rfl, by simp [Task.unit]⟩
    c.machine.run .tree [[light], [], [heavy]] = c.machine.run .sequential [[heavy, light]] ∧
    m.machine.run .tree [[light], [], [heavy]] = m.machine.run .sequential [[heavy, light]] ∧
    s.machine.run .tree [[light], [], [heavy]] = s.machine.run .sequential [[heavy, light]] := by
  intro heavy light c m s
  have split : [[light], [], [heavy]].flatten.Perm [heavy, light] := .swap heavy light []
  have alike : ∀ e ∈ [heavy, light], e.Alike 1 false := by
    simp [heavy, light, Example.Alike, Example.dimension, Label.isSurvival]
  obtain ⟨conjugate, newton, search⟩ := pass_eq_unsplit split alike .tree .sequential
  exact ⟨conjugate c, newton m (by decide), search s⟩

namespace Source

theorem filterMap_range {β : Type} (xs : List β) (k : Nat) :
    (List.range k).filterMap (xs[·]?) = xs.take k := by
  induction k with
  | zero => simp
  | succ k ih =>
    rw [List.range_succ, List.filterMap_append, ih, List.take_add_one, List.filterMap_cons]
    cases xs[k]? <;> rfl

omit [Exact α] in
theorem parts_perm (source : Source α) {order : List Nat}
    (shuffle : order.Perm (List.range source.size)) {count : Int} (positive : 1 ≤ count) :
    ∃ parts, source.parts order count = .ok parts ∧ parts.flatten.Perm source.examples := by
  obtain ⟨n, size⟩ : ∃ n, count.toNat = n + 1 := ⟨count.toNat - 1, by omega⟩
  refine ⟨_, if_neg (by omega), ?_⟩
  rw [size, flatten_cut]
  have reordered := shuffle.filterMap (source.examples[·]?)
  rwa [filterMap_range, Source.size, List.take_length] at reordered

end Source

structure Progress.Matches (p q : Progress α) : Prop where
  passes : p.passes = q.passes
  store : p.store = q.store
  directory : p.directory = q.directory
  log : p.log = q.log

open Update (Related)

theorem Progress.record_matches (k before : Nat) (s resumed : Snapshot α) (stepsize : Option α)
    (baseline : Option (Snapshot α)) :
    Related Progress.Matches Eq (record k before s resumed stepsize baseline)
      (record k before s resumed stepsize baseline) := by
  unfold record
  refine .bind (.onPart _ ?_ ?_) fun _ _ _ => ?_
  · intro p q same
    rw [same.store, same.directory]
  · intro kept p q same
    exact ⟨same.passes, rfl, rfl, same.log⟩
  refine .bind (.ofExcept _) ?_
  rintro change _ rfl
  refine .bind (.ofExcept _) ?_
  rintro lossPerRow _ rfl
  refine .bind (.modify fun p q same => ?_) fun _ _ _ => .pure rfl
  exact ⟨same.passes, same.store, same.directory, by rw [same.log, same.passes]⟩

namespace Run

def split (run : Run α) (count : Int) (shape : Shape) : Run α :=
  { run with parts := some count, shape := shape }

@[simp] theorem split_task (run : Run α) (count : Int) (shape : Shape) :
    (run.split count shape).task = run.task := rfl

@[simp] theorem split_method (run : Run α) (count : Int) (shape : Shape) :
    (run.split count shape).method = run.method := rfl

@[simp] theorem split_lineSearch (run : Run α) (count : Int) (shape : Shape) :
    (run.split count shape).lineSearch = run.lineSearch := rfl

structure Deals (source : Source α) (count : Int) (shuffles : Shuffles) : Prop where
  positive : 1 ≤ count
  shuffle : ∀ i, (shuffles i).Perm (List.range source.size)

variable {run : Run α} {source : Source α} {count count' : Int} {shape shape' : Shape}
  {shuffles shuffles' : Shuffles}

theorem run_parts? (shape : Shape) (separable : run.task.objective.usesRiskSet = false)
    (deals : Deals source count shuffles) (p : Progress α) :
    ∃ parts used, ((run.split count shape).parts? source shuffles).run p =
      (.ok parts, { p with shuffles := used }) ∧ parts.flatten.Perm source.examples := by
  obtain ⟨parts, cut, same⟩ := source.parts_perm (deals.shuffle p.shuffles) deals.positive
  unfold parts?
  simp only [split, separable, Bool.false_eq_true, if_false, Option.some.injEq]
  split_ifs with single
  · exact ⟨[source.examples], p.shuffles, rfl, by simp⟩
  · refine ⟨parts, p.shuffles + 1, ?_, same⟩
    rw [Update.run_bind_ok (Update.run_get p), Update.run_bind_ok (Update.run_modify _ p),
      Update.run_ofExcept, cut]

theorem pass_matches {σ ρ : Type} {m : Machine α σ ρ}
    (uniform : m.Uniform (Example.Alike source.dimension source.survival))
    (separable : run.task.objective.usesRiskSet = false) (deals : Deals source count shuffles)
    (deals' : Deals source count' shuffles') :
    Related Progress.Matches Eq ((run.split count shape).pass source shuffles m)
      ((run.split count' shape').pass source shuffles' m) := by
  unfold pass
  refine .bind (.modify fun p q same => ?_) fun _ _ _ => ?_
  · exact ⟨by rw [same.passes], same.store, same.directory, same.log⟩
  intro p q same
  obtain ⟨parts, used, cut, perm⟩ := run_parts? shape separable deals p
  obtain ⟨parts', used', cut', perm'⟩ := run_parts? shape' separable deals' q
  rw [Update.run_bind_ok cut, Update.run_bind_ok cut', Update.run_ofExcept, Update.run_ofExcept]
  have all : ∀ e ∈ parts.flatten, e.Alike source.dimension source.survival :=
    fun e member => source.uniform e (perm.mem_iff.mp member)
  have equal : m.run shape parts = m.run shape' parts' :=
    uniform.run_eq_run all (perm.trans perm'.symm) shape shape'
  change Agree Eq (m.run shape parts) (m.run shape' parts') ∧ _
  rw [equal]
  exact ⟨.refl _, same.passes, same.store, same.directory, same.log⟩

section Fit

variable [DenseSolver α]

theorem optimizer_uniform {n : Nat} {survival : Bool} (batch : run.method ≠ .incremental)
    (separable : run.task.objective.usesRiskSet = false) {previous : Option (Snapshot α)}
    {o : Optimizer α} (made : run.optimizer previous = .ok o) :
    o.machine.Uniform (Example.Alike n survival) := by
  unfold optimizer at made
  cases method : run.method with
  | incremental => exact absurd method batch
  | conjugate =>
    simp only [method] at made
    obtain ⟨c, _, rest⟩ := bind_eq_ok.mp made
    cases rest
    exact c.additive.uniform
  | newton =>
    simp only [method] at made
    obtain ⟨m, make, rest⟩ := bind_eq_ok.mp made
    cases rest
    obtain ⟨origin, start, make⟩ := bind_eq_ok.mp make
    cases start
    have objective : m.objective = run.task.objective := by
      unfold Newton.ofOrigin at make
      simp only at make
      split_ifs at make
      cases make
      rfl
    exact (Newton.additive (objective ▸ separable)).uniform

theorem iteration_matches (batch : run.method ≠ .incremental)
    (separable : run.task.objective.usesRiskSet = false) (deals : Deals source count shuffles)
    (deals' : Deals source count' shuffles') (previous : Option (Snapshot α)) :
    Related Progress.Matches Eq ((run.split count shape).iteration source shuffles previous)
      ((run.split count' shape').iteration source shuffles' previous) := by
  have noTrials : ¬ (run.method = .incremental ∧ run.lineSearch = .bestBall) := fun h => batch h.1
  simp only [iteration, split_method, split_lineSearch, noTrials, if_false]
  refine .bind (.of_agree (.self (run.optimizer previous))) ?_
  rintro o _ ⟨rfl, made⟩
  exact pass_matches (optimizer_uniform batch separable made) separable deals deals'

omit [DenseSolver α] in
theorem lineStep_matches (separable : run.task.objective.usesRiskSet = false)
    (deals : Deals source count shuffles) (deals' : Deals source count' shuffles')
    (s : Snapshot α) :
    Related Progress.Matches Eq ((run.split count shape).lineStep source shuffles s)
      ((run.split count' shape').lineStep source shuffles' s) := by
  simp only [lineStep, split_lineSearch, split_task]
  cases run.lineSearch with
  | fixed =>
    refine .bind (.ofExcept _) ?_
    rintro moved _ rfl
    exact .pure rfl
  | bestBall =>
    refine .bind (.ofExcept _) ?_
    rintro direction _ rfl
    refine .bind (.ofExcept _) ?_
    rintro search _ rfl
    refine .bind (pass_matches search.uniform_machine separable deals deals') ?_
    rintro winner _ rfl
    cases winner.bind (·.stepsize) with
    | none => exact .throw _
    | some stepsize =>
      refine .bind (.ofExcept _) ?_
      rintro moved _ rfl
      exact .pure rfl

omit [DenseSolver α] in
theorem next_matches (separable : run.task.objective.usesRiskSet = false)
    (deals : Deals source count shuffles) (deals' : Deals source count' shuffles')
    (s : Snapshot α) :
    Related Progress.Matches Eq ((run.split count shape).next source shuffles s)
      ((run.split count' shape').next source shuffles' s) := by
  by_cases method : run.method = .conjugate
  · simp only [next, split_method, method, if_true]
    refine .bind (lineStep_matches separable deals deals' s) ?_
    rintro moved _ rfl
    exact .pure rfl
  · simp only [next, split_method, method, if_false]
    exact .pure rfl

theorem iterate_matches (shape shape' : Shape) (batch : run.method ≠ .incremental)
    (separable : run.task.objective.usesRiskSet = false) (deals : Deals source count shuffles)
    (deals' : Deals source count' shuffles') (left k : Nat)
    (seed baseline : Option (Snapshot α)) :
    Related Progress.Matches Eq
      ((run.split count shape).iterate source shuffles k seed baseline left)
      ((run.split count' shape').iterate source shuffles' k seed baseline left) := by
  -- On the iterations left. The shuffles drift apart, but nothing else that is read does.
  induction left generalizing k seed baseline with
  | zero => exact .pure rfl
  | succ left ih =>
    unfold iterate
    refine .bind .get fun p q same => ?_
    rw [same.passes]
    refine .bind (iteration_matches batch separable deals deals' seed) ?_
    rintro found _ rfl
    cases found with
    | none => exact .pure rfl
    | some s =>
      refine .bind (next_matches separable deals deals' s) ?_
      rintro ⟨resumed, stepsize⟩ _ rfl
      refine .bind (Progress.record_matches k _ s resumed stepsize baseline) ?_
      rintro change _ rfl
      refine .bind (.ofExcept _) ?_
      rintro tolerance _ rfl
      split_ifs with settled
      · exact .pure rfl
      · exact ih (k + 1) (some resumed) (some s)

theorem fit_eq_of_split (batch : run.method ≠ .incremental) (separable : run.task.objective ≠ .cox)
    (positive : 1 ≤ count) (positive' : 1 ≤ count')
    (shuffle : ∀ i, (shuffles i).Perm (List.range source.size))
    (shuffle' : ∀ i, (shuffles' i).Perm (List.range source.size))
    (previous : Option (Snapshot α)) (start : Progress α) :
    let one := ((run.split count shape).fit source shuffles previous).run start
    let other := ((run.split count' shape').fit source shuffles' previous).run start
    one.1 = other.1 ∧ one.2.log = other.2.log ∧ one.2.store = other.2.store ∧
      one.2.directory = other.2.directory ∧ one.2.passes = other.2.passes := by
  have noRiskSet := Objective.usesRiskSet_eq_false separable
  obtain ⟨agree, left⟩ := iterate_matches shape shape' batch noRiskSet
    ⟨positive, shuffle⟩ ⟨positive', shuffle'⟩ run.maxIterations 1 previous none
    ⟨rfl, rfl, rfl, rfl⟩
  exact ⟨agree.eq, left.log, left.store, left.directory, left.passes⟩

theorem fit_eq_of_split_reversed :
    let run : Run ℝ := ⟨.unit .svm, .conjugate, some 0, 5, none, .tree, .fletcherReeves, .bestBall,
      [1, 1 / 2], 100, 1000⟩
    let source : Source ℝ :=
      ⟨1, false, [⟨[3], .plain 1⟩, ⟨[2], .plain 0⟩], by simp [Example.dimension, Label.isSurvival]⟩
    let forward := ((run.split 2 .tree).fit source (fun _ => [0, 1]) none).run (.fresh true)
    let backward := ((run.split 3 .sequential).fit source (fun _ => [1, 0]) none).run (.fresh true)
    forward.1 = backward.1 ∧ forward.2.log = backward.2.log ∧
      forward.2.store = backward.2.store ∧ forward.2.directory = backward.2.directory ∧
      forward.2.passes = backward.2.passes := by
  intro run source
  have batch : run.method ≠ .incremental := by simp [run]
  have separable : run.task.objective ≠ .cox := by simp [run, Task.unit]
  exact fit_eq_of_split batch separable (by decide) (by decide) (fun _ => .refl _)
    (fun _ => .swap _ _ _) none (.fresh true)

end Fit

end Run

end Passwise
