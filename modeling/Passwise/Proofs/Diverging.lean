import Passwise.Proofs.BestTrial
import Passwise.Proofs.Candidates
import Passwise.Proofs.Restart

set_option autoImplicit false

namespace Passwise

variable {α : Type} [Scalar α]

theorem exists_error_of_mapM {β γ : Type} {f : β → Except Error γ} {P : Error → Prop}
    {xs : List β} (each : ∀ x ∈ xs, (∃ y, f x = .ok y) ∨ ∃ cause, f x = .error cause ∧ P cause)
    {x : β} (member : x ∈ xs) (fails : ∀ y, f x ≠ .ok y) :
    ∃ cause, xs.mapM f = .error cause ∧ P cause := by
  induction xs with
  | nil => cases member
  | cons first rest ih =>
    obtain ⟨here, others⟩ := List.forall_mem_cons.mp each
    rw [List.mapM_cons]
    rcases here with ⟨y, done⟩ | ⟨cause, failed, property⟩
    · obtain ⟨cause, failed, property⟩ : ∃ cause, rest.mapM f = .error cause ∧ P cause := by
        rcases List.mem_cons.mp member with rfl | later
        · exact absurd done (fails y)
        · exact ih others later
      exact ⟨cause, by rw [done, ok_bind, failed]; rfl, property⟩
    · exact ⟨cause, by rw [failed]; rfl, property⟩

def PassState.Settled (state : PassState α) : Prop :=
  Vec.isFinite state.model = true ∧
    ((state.task.penalty.loss state.task.regularization state.model).toOption.any fun penalty =>
      Scalar.isFinite (state.totals.loss + penalty)) = true

instance (state : PassState α) : Decidable state.Settled := inferInstanceAs (Decidable (_ ∧ _))

namespace Incremental

variable {i : Incremental α} {d : Nat} {left right state next whole : PassState α}

theorem alike_of_absorb {e : Example α} (absorbed : (i.machine.absorb e).exec state = .ok next) :
    next.model.length = e.dimension ∧ e.label.isSurvival = false := by
  change (i.strategy.absorb e).exec state = .ok next at absorbed
  rw [Strategy.exec_absorb] at absorbed
  change _ <$> (i.step e).exec state = _ at absorbed
  simp only [step, Update.exec_get_bind, Update.exec_ofExcept_bind, Update.exec_bind_unit,
    Update.exec_modify, ok_bind] at absorbed
  rcases moves : moved i.objective state.task state.model e with cause | model
  · rw [moves] at absorbed
    cases absorbed
  rw [moves, ok_bind] at absorbed
  rcases made : i.objective.loss model e with cause | loss
  · rw [made] at absorbed
    cases absorbed
  · rw [made] at absorbed
    cases absorbed
    exact Objective.alike_of_loss made

theorem length_of_join (joined : i.machine.join left right = .ok whole)
    (before : left.model.length = d) (after : right.model.length = d) : whole.model.length = d := by
  change i.strategy.join left right = .ok whole at joined
  unfold Strategy.join at joined
  split_ifs at joined
  obtain ⟨_, parts, joined⟩ := bind_eq_ok.mp joined
  cases joined
  obtain ⟨model, mean, parts⟩ := bind_eq_ok.mp parts
  cases parts
  unfold meanModel at mean
  dsimp only at mean
  split_ifs at mean
  · cases mean
    exact before
  · obtain ⟨_, -, mean⟩ := bind_eq_ok.mp mean
    obtain ⟨_, -, mean⟩ := bind_eq_ok.mp mean
    obtain ⟨sum, added, mean⟩ := bind_eq_ok.mp mean
    obtain ⟨_, -, mean⟩ := bind_eq_ok.mp mean
    cases mean
    rw [List.length_map]
    exact Vec.length_combine ((Vec.length_scale _ _).trans before)
      ((Vec.length_scale _ _).trans after) added

theorem finish_cases [Scalar.Plain α] (task : state.task = i.origin.task) :
    (state.Settled ∧ ∃ s, i.finish state = .ok s ∧ s.model = state.model) ∨
      (¬ state.Settled ∧ ∃ cause, i.finish state = .error cause ∧ cause.family = .numeric) := by
  obtain ⟨penalty, known⟩ := state.task.penalty.loss_ok state.task.regularization state.model
  have own : i.objective.penalty.loss state.task.regularization state.model = .ok penalty := by
    rw [← known, objective, ← task]
    rfl
  unfold finish
  by_cases model : Vec.isFinite state.model = true
  · simp only [requireFiniteVec, if_pos model, own, ok_bind, requireFinite,
      Scalar.Plain.measure_ok]
    by_cases finite : Scalar.isFinite (state.totals.loss + penalty) = true
    · refine .inl ⟨⟨model, by rw [known]; exact finite⟩, ?_⟩
      rw [if_pos finite]
      exact ⟨_, rfl, rfl⟩
    · refine .inr ⟨?_, ?_⟩
      · rintro ⟨-, finite'⟩
        rw [known] at finite'
        exact finite finite'
      · rw [if_neg finite]
        exact ⟨_, rfl, rfl⟩
  · refine .inr ⟨fun settled => model settled.1, ?_⟩
    rw [requireFiniteVec, if_neg model]
    exact ⟨_, rfl, rfl⟩

end Incremental

namespace Trials

variable {t : Trials α} {states : List (PassState α)}

structure Went (d : Nat) (xs : List (Example α)) (i : Incremental α) (state : PassState α) :
    Prop where
  counted : state.Counted i.origin xs.length
  model : xs ≠ [] → state.model.length = d
  alike : ∀ e ∈ xs, e.Alike d false

theorem tells {d : Nat} (sized : ∀ i ∈ t.trials, i.origin.task.dimension = d) :
    t.machine.Tells fun xs states => List.Forall₂ (Went d xs) t.trials states where
  start states started := by
    have fresh := t.counts.start states started
    exact fresh.imp fun i state counted => ⟨counted, by simp, by simp⟩
  absorb xs e states next before _ absorbed := by
    refine Update.forall₂_of_exec_each before ?_ absorbed
    intro j i state moved here went taken
    rw [here] at taken
    dsimp only at taken
    rw [Update.exec_ofExcept_bind] at taken
    obtain ⟨_, accepted, taken⟩ := bind_eq_ok.mp taken
    have size : e.dimension = d :=
      (Strategy.dimension_of_accepts accepted).trans (sized i (List.mem_of_getElem? here))
    obtain ⟨model, plain⟩ := Incremental.alike_of_absorb taken
    refine ⟨?_, fun _ => model.trans size, List.forall_mem_append.mpr ⟨went.alike, ?_⟩⟩
    · rw [List.length_append]
      exact i.counting.counts.absorb xs.length e state moved went.counted accepted taken
    · rintro _ (_ | ⟨_, ⟨⟩⟩)
      exact ⟨size, plain⟩
  join xs ys left right whole some some' before after joined := by
    refine forall₂_of_join before after ?_ joined
    intro i a b c went went' merged
    refine ⟨?_, fun _ => ?_, List.forall_mem_append.mpr ⟨went.alike, went'.alike⟩⟩
    · rw [List.length_append]
      exact i.counting.counts.join _ _ a b c went.counted went'.counted merged
    · exact Incremental.length_of_join merged (went.model some) (went'.model some')

theorem alike_of_went {d : Nat} {xs : List (Example α)} (some : t.trials ≠ [])
    (went : List.Forall₂ (Went d xs) t.trials states) : ∀ e ∈ xs, e.Alike d false := by
  obtain ⟨i, rest, whole⟩ := List.exists_cons_of_ne_nil some
  rw [whole] at went
  obtain _ | ⟨first, _⟩ := went
  exact first.alike

theorem result_of_trial [Scalar.Plain α] {d : Nat} {xs : List (Example α)} (taken : xs ≠ [])
    {i : Incremental α} {state : PassState α} (went : Went d xs i state) :
    (state.Settled ∧ ∃ s, i.machine.result state = .ok (some s) ∧ s.model = state.model) ∨
      (¬ state.Settled ∧ ∃ cause, i.machine.result state = .error cause ∧
        cause.family = .numeric) := by
  have account := went.counted
  simp only [PassState.Counted, PassState.account, Prod.mk.injEq] at account
  have rows : state.rows ≠ 0 := by
    have some := List.length_pos_iff.mpr taken
    omega
  have result : i.machine.result state = some <$> i.finish state := by
    change i.strategy.result state = _
    rw [Strategy.result, if_neg rows]
    rfl
  rw [result]
  refine (Incremental.finish_cases account.1).imp ?_ ?_
  · rintro ⟨settled, s, finished, model⟩
    exact ⟨settled, s, by rw [finished]; rfl, model⟩
  · rintro ⟨unsettled, cause, failed, numeric⟩
    exact ⟨unsettled, cause, by rw [failed]; rfl, numeric⟩

theorem result_cases [Scalar.Plain α] {d : Nat} {xs : List (Example α)} (taken : xs ≠ [])
    (went : List.Forall₂ (Went d xs) t.trials states) :
    ((∀ state ∈ states, state.Settled) ∧ ∃ found, t.result states = .ok (some found) ∧
        List.Forall₂ (fun (pair : Incremental α × PassState α) s =>
          pair.1.machine.result pair.2 = .ok (some s) ∧ s.model = pair.2.model)
          (t.trials.zip states) found) ∨
      ((∃ state ∈ states, ¬ state.Settled) ∧ ∃ cause, t.result states = .error cause ∧
        cause.family = .numeric) := by
  have each (pair) (member : pair ∈ t.trials.zip states) :=
    result_of_trial taken ((List.forall₂_iff_zip.mp went).2 member)
  have place {state : PassState α} (member : state ∈ states) :
      ∃ i, (i, state) ∈ t.trials.zip states := by
    obtain ⟨k, inside, rfl⟩ := List.getElem_of_mem member
    have inside' : k < t.trials.length := went.length_eq ▸ inside
    exact ⟨t.trials.get ⟨k, inside'⟩, List.mem_iff_getElem.mpr ⟨k, by simp; omega, by simp⟩⟩
  by_cases all : ∀ state ∈ states, state.Settled
  · refine .inl ⟨all, result_of_each fun pair member => ?_⟩
    rcases each pair member with ⟨-, done⟩ | ⟨unsettled, -⟩
    · exact done
    · exact absurd (all pair.2 (List.of_mem_zip member).2) unsettled
  · obtain ⟨state, member, unsettled⟩ : ∃ state ∈ states, ¬ state.Settled := by simpa using all
    refine .inr ⟨⟨state, member, unsettled⟩, ?_⟩
    obtain ⟨i, inside⟩ := place member
    obtain ⟨cause, failed, numeric⟩ : ∃ cause, (t.trials.zip states).mapM
        (fun pair => pair.1.machine.result pair.2) = .error cause ∧ cause.family = .numeric := by
      refine exists_error_of_mapM (fun pair member => ?_) inside fun entry done => ?_
      · rcases each pair member with ⟨-, s, done, -⟩ | ⟨-, failed⟩
        · exact .inl ⟨_, done⟩
        · exact .inr failed
      · rcases each _ inside with ⟨settled, -⟩ | ⟨-, cause, failed, -⟩
        · exact unsettled settled
        · cases failed.symm.trans done
    refine ⟨cause, ?_, numeric⟩
    rw [result]
    exact congrArg (· >>= _) failed

theorem models_eq (trials : t.trials.length = states.length) {found : List (Snapshot α)}
    (each : List.Forall₂ (fun (pair : Incremental α × PassState α) s => s.model = pair.2.model)
      (t.trials.zip states) found) : found.map (·.model) = states.map (·.model) := by
  have whole : (t.trials.zip states).map (·.2.model) = states.map (·.model) := by
    calc (t.trials.zip states).map (·.2.model)
      _ = ((t.trials.zip states).map Prod.snd).map (·.model) := by rw [List.map_map]; rfl
      _ = states.map (·.model) := by rw [List.map_snd_zip trials.ge]
  rw [← whole, ← List.forall₂_eq_eq_eq, List.forall₂_map_left_iff, List.forall₂_map_right_iff]
  exact each.flip

inductive Verdict (t : Trials α) (states : List (PassState α)) (losses : List α) :
    Except Error (Option (Snapshot α)) → Prop
  | diverged {cause : Error} (some : ∃ state ∈ states, ¬ state.Settled)
      (numeric : cause.family = .numeric) : t.Verdict states losses (.error cause)
  | unscored (all : ∀ state ∈ states, state.Settled)
      (none : ∀ x ∈ losses, Scalar.isFinite x = false) :
      t.Verdict states losses (.error .noFiniteLoss)
  | found {k : Nat} {i : Incremental α} {state : PassState α} {s : Snapshot α} {loss : α}
      (all : ∀ state ∈ states, state.Settled) (trial : t.trials[k]? = .some i)
      (here : states[k]? = .some state) (finished : i.machine.result state = .ok (.some s))
      (model : Vec.isFinite s.model = true) (scored : losses[k]? = .some loss)
      (finite : Scalar.isFinite loss = true) :
      t.Verdict states losses (.ok (.some { s with loss := loss }))

theorem of_make {task : Task α} {stepsizes : List α} {previous : Option (Snapshot α)}
    (made : make task stepsizes previous = .ok t) :
    t.task = task ∧ t.stepsizes = stepsizes ∧ t.trials.length = stepsizes.length ∧
      t.trials ≠ [] ∧ task.objective.usesRiskSet = false := by
  have origins := exists_stepsize made
  unfold make at made
  split_ifs at made with empty
  obtain ⟨trials, each, made⟩ := bind_eq_ok.mp made
  cases made
  have length : trials.length = stepsizes.length := (forall₂_of_mapM each).length_eq.symm
  have some : trials ≠ [] := by
    rintro rfl
    rw [eq_comm, List.length_nil, List.length_eq_zero_iff] at length
    simp [length] at empty
  obtain ⟨i, rest, whole⟩ := List.exists_cons_of_ne_nil some
  obtain ⟨-, _, -, given⟩ := origins i (by simp [whole])
  exact ⟨rfl, rfl, length, some, (Task.withStepsize_ok given).2.1 ▸ i.separable⟩

end Trials

namespace Run

variable {run : Run α} {source : Source α} {shuffles : Shuffles} {seed : Option (Snapshot α)}
  {p dealt : Progress α} {parts : List (List (Example α))} {t : Trials α}
  {states : List (PassState α)}

theorem parts?_again (shuffled : Shuffled source shuffles)
    (split : (run.parts? source shuffles).run p = (.ok parts, dealt)) (q : Progress α) :
    ∃ parts' dealt', (run.parts? source shuffles).run q = (.ok parts', dealt') ∧
      parts'.flatten.Perm source.examples := by
  suffices goes : ∃ parts' dealt', (run.parts? source shuffles).run q = (.ok parts', dealt') by
    obtain ⟨parts', dealt', split'⟩ := goes
    exact ⟨parts', dealt', split', parts?_perm shuffled split'⟩
  unfold parts? at split ⊢
  split_ifs at split ⊢
  · exact ⟨_, _, rfl⟩
  · exact ⟨_, _, rfl⟩
  · obtain ⟨_, _, here, split⟩ := Update.run_bind_eq_ok.mp split
    cases here
    obtain ⟨_, _, _, split⟩ := Update.run_bind_eq_ok.mp split
    rw [Update.run_bind_ok (Update.run_get q), Update.run_bind_ok (Update.run_modify _ _)]
    cases known : run.parts with
    | none =>
      rw [known] at split
      cases split
    | some count =>
      rw [known] at split
      rw [Update.run_ofExcept, Prod.mk.injEq] at split
      obtain ⟨split, -⟩ := split
      have positive : ¬ count < 1 := by
        intro few
        rw [Source.parts, if_pos few] at split
        cases split
      dsimp only
      rw [Update.run_ofExcept, Source.parts, if_neg positive]
      exact ⟨_, _, rfl⟩

theorem run_pass_of_gathered {σ ρ : Type} {m : Machine α σ ρ} {state : σ}
    (split : (run.parts? source shuffles).run { p with passes := p.passes + 1 } = (.ok parts, dealt))
    (ended : m.gathered run.shape parts = .ok (some state)) :
    (run.pass source shuffles m).run p = (m.result state, dealt) := by
  unfold pass
  rw [Update.run_bind_ok (Update.run_modify _ _), Update.run_bind_ok split, Update.run_ofExcept,
    Machine.run_eq_gathered, ended]
  rfl

theorem run_bestTrial_diverged {cause : Error} {q : Progress α}
    (made : Trials.make run.task run.stepsizes seed = .ok t)
    (failed : (run.pass source shuffles t.machine).run p = (.error cause, q)) :
    (run.bestTrial source shuffles seed).run p = (.error cause, q) := by
  rw [bestTrial, made, Update.run_bind_ok (Update.run_ofExcept _ _), Update.run_bind_error failed]

theorem run_bestTrial_unscored {trials : List (Snapshot α)} {search : Search α} {cause : Error}
    {middle q : Progress α} (made : Trials.make run.task run.stepsizes seed = .ok t)
    (passed : (run.pass source shuffles t.machine).run p = (.ok (some trials), middle))
    (searched : t.search trials = .ok search)
    (failed : (run.pass source shuffles search.machine).run middle = (.error cause, q)) :
    (run.bestTrial source shuffles seed).run p = (.error cause, q) := by
  rw [bestTrial, made, Update.run_bind_ok (Update.run_ofExcept _ _), Update.run_bind_ok passed]
  dsimp only
  rw [searched, Update.run_bind_ok (Update.run_ofExcept _ _), Update.run_bind_error failed]

def Scores (run : Run α) (source : Source α) (shuffles : Shuffles) (p : Progress α)
    (models : List (Vec α)) (losses : List α) : Prop :=
  ∃ search parts dealt candidates,
    Search.make run.task models (some run.stepsizes) = .ok search ∧
    (run.parts? source shuffles).run { p with passes := p.passes + 1 } = (.ok parts, dealt) ∧
    search.machine.gathered run.shape parts = .ok (some candidates) ∧
    search.penalizedLosses candidates = .ok losses

theorem exists_scores [Scalar.Plain α] (shuffled : Shuffled source shuffles) {search : Search α}
    {models : List (Vec α)}
    (searched : Search.make run.task models (some run.stepsizes) = .ok search)
    (some : source.examples ≠ [])
    (alike : ∀ e ∈ source.examples, e.Alike search.task.dimension false)
    (split : (run.parts? source shuffles).run p = (.ok parts, dealt)) (q : Progress α) :
    ∃ losses result dealt', run.Scores source shuffles q models losses ∧
      (run.pass source shuffles search.machine).run q = (result, dealt') ∧
      search.Verdict losses result := by
  -- The same examples come again, so that the second pass can take them all.
  obtain ⟨parts', dealt', split', perm⟩ :=
    parts?_again shuffled split { q with passes := q.passes + 1 }
  have taken : parts'.flatten ≠ [] := fun empty => some (empty ▸ perm).nil_eq.symm
  obtain ⟨state, gathered, carried, -⟩ := (Search.follows search.sums_trivial).run_eq run.shape
    (fun e member => alike e (perm.mem_iff.mp member)) taken
  obtain ⟨losses, scored, -, winner⟩ := carried.result taken
  exact ⟨losses, search.result state, dealt',
    ⟨search, parts', dealt', state, searched, split', gathered, scored⟩,
    run_pass_of_gathered split' gathered, winner⟩

theorem bestTrial_of_settled (made : Trials.make run.task run.stepsizes seed = .ok t)
    (task : t.task = run.task) (stepsizes : t.stepsizes = run.stepsizes)
    {found : List (Snapshot α)} {middle q : Progress α}
    (passed : (run.pass source shuffles t.machine).run p = (.ok (some found), middle))
    (trials : t.trials.length = states.length) (settled : ∀ state ∈ states, state.Settled)
    (each : List.Forall₂ (fun (pair : Incremental α × PassState α) s =>
      pair.1.machine.result pair.2 = .ok (some s) ∧ s.model = pair.2.model)
      (t.trials.zip states) found)
    {search : Search α} (models : search.models = states.map (·.model))
    (searched : Search.make run.task (states.map (·.model)) (some run.stepsizes) = .ok search)
    {losses : List α} {result : Except Error (Option (Winner α))}
    (scored : (run.pass source shuffles search.machine).run middle = (result, q))
    (winner : search.Verdict losses result) :
    ∃ result, (run.bestTrial source shuffles seed).run p = (result, q) ∧
      t.Verdict states losses result := by
  have again := Trials.models_eq trials (each.imp fun _ _ => And.right)
  have searched' : t.search found = .ok search := by
    rw [Trials.search, task, stepsizes, again, searched]
  cases winner with
  | unscored none =>
    exact ⟨_, run_bestTrial_unscored made passed searched' scored, .unscored settled none⟩
  | @won w place _ here finite =>
    have candidate : (found.map (·.model))[w.index]? = some w.model := by
      rw [again, ← models, place]
    rw [List.getElem?_map] at candidate
    obtain ⟨s, own, -⟩ := Option.map_eq_some_iff.mp candidate
    obtain ⟨⟨i, last⟩, pair, finished, model⟩ := getElem?_forall₂ each.flip own
    obtain ⟨trial, last'⟩ := List.getElem?_zip_eq_some.mp pair
    have finite' := (settled last (List.mem_of_getElem? last')).1
    exact ⟨_, run_bestTrial made passed searched' scored own,
      .found settled trial last' finished (model ▸ finite') here finite⟩

variable [DenseSolver α]

theorem iteration_of_trials [Scalar.Plain α] (incremental : run.method = .incremental)
    (best : run.lineSearch = .bestBall) (shuffled : Shuffled source shuffles)
    (made : Trials.make run.task run.stepsizes seed = .ok t)
    (split : (run.parts? source shuffles).run { p with passes := p.passes + 1 } = (.ok parts, dealt))
    (ended : t.machine.gathered run.shape parts = .ok (some states)) :
    ∃ losses result q, run.Scores source shuffles dealt (states.map (·.model)) losses ∧
      (run.iteration source shuffles seed).run p = (result, q) ∧
      t.Verdict states losses result := by
  obtain ⟨task, stepsizes, count, some, separable⟩ := Trials.of_make made
  have sized : ∀ i ∈ t.trials, i.origin.task.dimension = run.task.dimension :=
    fun i member => (Trials.make_ok made i member).1
  obtain ⟨taken, went⟩ := (Trials.tells sized).stands_of_gathered ended
  have perm := parts?_perm shuffled split
  have length : (states.map (·.model)).length = run.stepsizes.length := by
    rw [List.length_map, ← went.length_eq, count]
  have models : states.map (·.model) ≠ [] := by
    rw [← List.length_pos_iff, length, ← count]
    exact List.length_pos_iff.mpr some
  have dimension : ∀ model ∈ states.map (·.model), model.length = run.task.dimension := by
    intro model member
    obtain ⟨state, inside, rfl⟩ := List.mem_map.mp member
    obtain ⟨i, -, own⟩ := exists_of_forall₂ went inside
    exact own.model taken
  obtain ⟨search, searched, same, candidates⟩ :=
    Search.exists_make models length.symm separable dimension
  obtain ⟨losses, result, q, scores, scored, winner⟩ := exists_scores shuffled searched
    (fun empty => taken (empty ▸ perm).eq_nil)
    (fun e member => same ▸ Trials.alike_of_went some went e (perm.mem_iff.mpr member)) split dealt
  have passed : (run.pass source shuffles t.machine).run p = (t.result states, dealt) :=
    run_pass_of_gathered split ended
  rw [iteration, if_pos ⟨incremental, best⟩]
  rcases Trials.result_cases taken went with ⟨settled, found, done, each⟩ | ⟨unsettled, failed⟩
  · rw [done] at passed
    obtain ⟨result, ran, verdict⟩ := bestTrial_of_settled made task stepsizes passed went.length_eq
      settled each candidates searched scored winner
    exact ⟨losses, result, q, scores, ran, verdict⟩
  · obtain ⟨cause, failed, numeric⟩ := failed
    rw [failed] at passed
    exact ⟨losses, .error cause, dealt, scores, run_bestTrial_diverged made passed,
      .diverged unsettled numeric⟩

def trying (stepsizes : List Float) : Run Float :=
  { halving .incremental with lineSearch := .bestBall, stepsizes := stepsizes }

def states? (stepsizes : List Float) : Option (List (PassState Float)) :=
  (Trials.make .halving stepsizes none >>= fun t =>
    t.machine.gathered .tree [Source.point.examples]).toOption.join

theorem ended_of_states? {stepsizes : List Float} {states : List (PassState Float)}
    (known : states? stepsizes = some states) :
    ∃ t, Trials.make .halving stepsizes none = .ok t ∧
      t.machine.gathered .tree [Source.point.examples] = .ok (some states) := by
  obtain ⟨t, made, ended⟩ := bind_eq_ok.mp (eq_ok_of_join known)
  exact ⟨t, made, ended⟩

def fault? (stepsizes : List Float) : Option Family :=
  match (((trying stepsizes).iteration .point (fun _ => [0]) none).run (.fresh false)).1 with
  | .ok _ => none
  | .error cause => some cause.family

theorem iteration_of_trials_halving :
    let run := trying [0.5, 0.25]
    ∃ t states, Trials.make run.task run.stepsizes none = .ok t ∧
      t.machine.gathered run.shape [Source.point.examples] = .ok (some states) ∧
      (∀ state ∈ states, state.Settled) ∧
      ∃ found q, (run.iteration .point (fun _ => [0]) none).run (.fresh false) =
        (.ok (some found), q) ∧ Vec.isFinite found.model = true ∧
          Scalar.isFinite found.loss = true := by
  intro run
  obtain ⟨states, known⟩ : ∃ states, states? [0.5, 0.25] = some states :=
    Option.isSome_iff_exists.mp (by decide +kernel)
  obtain ⟨t, made, ended⟩ := ended_of_states? known
  have settled : ∀ state ∈ states, state.Settled := by
    have all : (states? [0.5, 0.25]).all (·.all fun state => decide state.Settled) = true := by
      decide +kernel
    rw [known] at all
    simpa using all
  refine ⟨t, states, made, ended, settled, ?_⟩
  have incremental : run.method = .incremental := rfl
  have shuffled : Shuffled Source.point fun _ => [0] := fun _ => .refl _
  obtain ⟨losses, result, q, -, ran, verdict⟩ :=
    iteration_of_trials (p := .fresh false) incremental rfl shuffled made rfl ended
  have clean : fault? [0.5, 0.25] = none := by decide +kernel
  rw [fault?, show trying [0.5, 0.25] = run from rfl, ran] at clean
  cases verdict with
  | diverged | unscored => cases clean
  | found _ _ _ _ model _ finite => exact ⟨_, q, ran, model, finite⟩

def losses? (stepsizes : List Float) (models : List (Vec Float)) : Option (List Float) :=
  (Search.make .halving models (some stepsizes) >>= fun search =>
    search.machine.gathered .tree [Source.point.examples] >>= fun candidates =>
      candidates.elim (.error .missingPart) search.penalizedLosses).toOption

theorem scores_of_losses? {stepsizes : List Float} {models : List (Vec Float)}
    {losses : List Float} (known : losses? stepsizes models = some losses) (p : Progress Float) :
    (trying stepsizes).Scores .point (fun _ => [0]) p models losses := by
  obtain ⟨search, made, known⟩ := bind_eq_ok.mp (eq_ok_of_toOption known)
  obtain ⟨candidates, ended, scored⟩ := bind_eq_ok.mp known
  cases candidates with
  | none => cases scored
  | some candidates =>
    exact ⟨search, [Source.point.examples], _, candidates, made, rfl, ended, scored⟩

theorem diverging_trial_stops_iteration :
    let run := trying [0.5, 1e200]
    ∃ t states losses cause q, Trials.make run.task run.stepsizes none = .ok t ∧
      t.machine.gathered run.shape [Source.point.examples] = .ok (some states) ∧
      states.map (fun state => decide state.Settled) = [true, false] ∧
      (∀ p, run.Scores .point (fun _ => [0]) p (states.map (·.model)) losses) ∧
      losses.head?.map Scalar.isFinite = some true ∧
      (run.iteration .point (fun _ => [0]) none).run (.fresh false) = (.error cause, q) ∧
      cause.family = .numeric := by
  intro run
  obtain ⟨states, known⟩ : ∃ states, states? [0.5, 1e200] = some states :=
    Option.isSome_iff_exists.mp (by decide +kernel)
  obtain ⟨t, made, ended⟩ := ended_of_states? known
  have settled : (states? [0.5, 1e200]).map (·.map fun state => decide state.Settled) =
      some [true, false] := by
    decide +kernel
  have scored : ((states? [0.5, 1e200]).bind fun states =>
      losses? [0.5, 1e200] (states.map (·.model))).map (·.head?.map Scalar.isFinite) =
        some (some true) := by
    decide +kernel
  have fault : fault? [0.5, 1e200] = some .numeric := by decide +kernel
  rw [known, Option.map_some, Option.some.injEq] at settled
  rw [known, Option.bind_some] at scored
  obtain ⟨losses, here, finite⟩ := Option.map_eq_some_iff.mp scored
  rw [fault?, show trying [0.5, 1e200] = run from rfl] at fault
  rcases ran : (run.iteration .point (fun _ => [0]) none).run (.fresh false) with ⟨cause | _, q⟩
  · rw [ran] at fault
    exact ⟨t, states, losses, cause, q, made, ended, settled, scores_of_losses? here, finite, rfl,
      Option.some.inj fault⟩
  · rw [ran] at fault
    cases fault

end Run

end Passwise
