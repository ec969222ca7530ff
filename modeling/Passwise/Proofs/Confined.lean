import Passwise.Proofs.Alongside
import Passwise.Proofs.Damping
import Passwise.Proofs.Trace

set_option autoImplicit false

namespace Passwise

section Keeping

variable {α : Type} [Scalar α] {P : Snapshot α → Prop}

def Progress.Keeps (P : Snapshot α → Prop) (p : Progress α) : Prop :=
  ∀ entry ∈ p.store.kept, ∀ s ∈ entry.2, P s

theorem Store.mem_keep {store : Store α} {i : Int} {s : Option (Snapshot α)}
    {entry : Int × Option (Snapshot α)} (member : entry ∈ (store.keep i s).kept) :
    entry ∈ store.kept ∨ entry = (i, s) := by
  unfold keep at member
  split_ifs at member
  · obtain ⟨⟨j, old⟩, inside, same⟩ := List.mem_map.mp member
    dsimp only at same
    split_ifs at same with here
    · exact .inr (here ▸ same.symm)
    · exact .inl (same ▸ inside)
  · simpa using member

theorem Store.keep_of_put {store : Store α} (k : Int) (files : Directory α) (s : Snapshot α) :
    ((put (.ofInt k) (some s)).run (store, files)).2.1 = store.keep k (some s) := by
  rw [run_put (k := k) rfl rfl]
  split_ifs
  · cases s.toCells <;> rfl
  · rfl

theorem Progress.record_maintains {k before : Nat} {s resumed : Snapshot α}
    {stepsize : Option α} {baseline : Option (Snapshot α)} (fine : P resumed) :
    Update.Maintains (Progress.Keeps P) (record k before s resumed stepsize baseline)
      fun _ => True := by
  refine .bind (Q := fun _ => True) ?_ fun _ _ => .bind (.ofExcept fun _ _ => trivial) fun _ _ =>
    .bind (.ofExcept fun _ _ => trivial) fun _ _ => .bind (.modify fun _ given => given)
    fun _ _ => .pure trivial
  intro p given
  refine ⟨?_, fun _ _ => trivial⟩
  intro entry member t inside
  rw [Update.run_onPart] at member
  dsimp only at member
  rw [Store.keep_of_put] at member
  rcases Store.mem_keep member with earlier | rfl
  · exact given entry earlier t inside
  · cases inside
    exact fine

namespace Run

variable [DenseSolver α] {run : Run α} {source : Source α} {shuffles : Shuffles}

theorem iterate_maintains (other : run.method ≠ .conjugate)
    (finds : ∀ seed p s q, (∀ s ∈ seed, P s) →
      (run.iteration source shuffles seed).run p = (.ok (some s), q) → P s)
    {k left : Nat} {seed baseline : Option (Snapshot α)} (resumes : ∀ s ∈ seed, P s) :
    Update.Maintains (Progress.Keeps P) (run.iterate source shuffles k seed baseline left)
      fun o => ∀ s ∈ o.snapshot, P s := by
  have shown (p q : Progress α) (same : p.shown = q.shown) (given : p.Keeps P) : q.Keeps P := by
    obtain ⟨store, -⟩ := Prod.mk.injEq _ _ _ _ ▸ same
    unfold Progress.Keeps
    rwa [← store]
  induction left generalizing k seed baseline with
  | zero => exact .pure resumes
  | succ left ih =>
    have found : Update.Maintains (Progress.Keeps P) (run.iteration source shuffles seed)
        fun found => ∀ s ∈ found, P s := by
      refine .of_keeps (iteration_keeps seed) shown ?_
      rintro p _ q ran s rfl
      exact finds seed p s q resumes ran
    refine .bind .get fun before _ => .bind found fun found fine => ?_
    cases found with
    | none => exact .pure resumes
    | some s =>
      have moved : Update.Maintains (Progress.Keeps P) (run.next source shuffles s)
          fun moved => P moved.1 := by
        refine .of_keeps (next_keeps s) shown ?_
        rintro p ⟨resumed, stepsize⟩ q ran
        rcases next_ok ran with ⟨conjugate, -⟩ | ⟨-, rfl, -⟩
        · exact absurd conjugate other
        · exact fine _ rfl
      refine .bind moved fun moved kind => .bind (Progress.record_maintains kind) fun change _ =>
        .bind (.ofExcept fun _ _ => trivial) fun tolerance _ => ?_
      have next : ∀ t ∈ some moved.1, P t := by
        rintro _ ⟨⟩
        exact kind
      split_ifs
      · exact .pure next
      · exact ih next

end Run

end Keeping

variable {α : Type} [Exact α] {d : Nat} {weight : α} {bound : Fin d → α}

def Vec.Reached (weight : α) (bound : Fin d → α) (model : Vec α) : Prop :=
  ∃ state : PassState α, Incremental.Reached weight bound state ∧ state.model = model

namespace Incremental

variable {i : Incremental α} {e : Example α} {state next : PassState α}

theorem reached_of_absorb (damped : i.origin.task.Damped d weight)
    (within : e.features.Within bound) (reached : Reached weight bound state)
    (accepted : i.machine.accepts e = .ok ())
    (absorbed : (i.machine.absorb e).exec state = .ok next) :
    Reached weight bound next := by
  have taken : (i.machine.take e).exec (some state) = .ok (some next) := by
    rw [Machine.take_some, accepted, ok_bind, absorbed]
    rfl
  exact .take reached damped within (Update.run_of_exec taken)

theorem reached_of_start (damped : i.origin.task.Damped d weight)
    (resumes : ∀ s ∈ i.origin.previous, s.model.Reached weight bound)
    (started : i.machine.start = .ok state) : Reached weight bound state := by
  cases known : i.origin.previous with
  | none => exact .start damped known started
  | some s =>
    obtain ⟨before, reached, same⟩ := resumes s known
    exact .resume reached same.symm damped known started

theorem leads (damped : i.origin.task.Damped d weight)
    (resumes : ∀ s ∈ i.origin.previous, s.model.Reached weight bound) :
    i.machine.Leads (fun e => e.features.Within bound) (Reached weight bound) where
  start _ := reached_of_start damped resumes
  absorb _ _ _ within reached := reached_of_absorb damped within reached
  join _ _ _ reached reached' joined := .join reached reached' joined

theorem model_of_result {s : Snapshot α} (done : i.machine.result state = .ok (some s)) :
    s.model = state.model := by
  change i.strategy.result state = _ at done
  unfold Strategy.result at done
  split_ifs at done
  · cases done
  obtain ⟨found, finished, done⟩ := bind_eq_ok.mp done
  cases done
  obtain ⟨_, -, finished⟩ := bind_eq_ok.mp finished
  obtain ⟨_, -, finished⟩ := bind_eq_ok.mp finished
  obtain ⟨_, -, finished⟩ := bind_eq_ok.mp finished
  cases finished
  rfl

end Incremental

theorem mem_of_sequence {β : Type} {entries : List (Option β)} {values : List β}
    (whole : entries.mapM id = some values) {value : β} (member : value ∈ values) :
    some value ∈ entries := by
  obtain ⟨_, inside, rfl⟩ := exists_of_forall₂ (forall₂_of_sequence whole) member
  exact inside

namespace Trials

variable {t : Trials α}

theorem leads (damped : ∀ i ∈ t.trials, i.origin.task.Damped d weight)
    (resumes : ∀ i ∈ t.trials, ∀ s ∈ i.origin.previous, s.model.Reached weight bound) :
    t.machine.Leads (fun e => e.features.Within bound)
      fun states => ∀ state ∈ states, Incremental.Reached weight bound state where
  start := by
    intro states started state member
    obtain ⟨i, trial, begun⟩ := exists_of_mem_mapM started member
    exact Incremental.reached_of_start (damped i trial) (resumes i trial) begun
  absorb := by
    intro e states next within reached _ absorbed state member
    change (t.absorb e).exec states = _ at absorbed
    rw [exec_absorb] at absorbed
    obtain ⟨⟨before, k⟩, inside, moved⟩ := exists_of_mem_mapM absorbed member
    have earlier := reached before (List.fst_mem_of_mem_zipIdx inside)
    unfold absorbAt at moved
    rcases place : t.trials[k]? with _ | i
    · rw [place] at moved
      cases moved
      exact earlier
    · rw [place] at moved
      obtain ⟨_, accepted, moved⟩ := bind_eq_ok.mp moved
      exact Incremental.reached_of_absorb (damped i (List.mem_of_getElem? place)) within earlier
        accepted moved
  join := by
    intro left right whole reached reached' joined state member
    obtain ⟨⟨i, a, b⟩, inside, merged⟩ := exists_of_mem_mapM joined member
    obtain ⟨inLeft, inRight⟩ := List.of_mem_zip (List.of_mem_zip inside).2
    exact .join (reached a inLeft) (reached' b inRight) merged

theorem exists_result {states : List (PassState α)} {found : List (Snapshot α)}
    (done : t.result states = .ok (some found)) {s : Snapshot α} (member : s ∈ found) :
    ∃ pair ∈ t.trials.zip states, pair.1.machine.result pair.2 = .ok (some s) := by
  obtain ⟨entries, made, whole⟩ := bind_eq_ok.mp done
  rw [pure_ok, Except.ok.injEq] at whole
  exact exists_of_mem_mapM made (mem_of_sequence whole member)

end Trials

namespace Run

structure Damped (d : Nat) (weight : α) (run : Run α) : Prop where
  method : run.method = .incremental
  dimension : run.task.dimension = d
  classifier : run.task.objective = .svm ∨ run.task.objective = .logistic
  regularization : run.task.regularization = weight
  fixed : run.lineSearch = .fixed → run.task.stepsize * weight ≤ 1
  tried : run.lineSearch = .bestBall → ∀ stepsize ∈ run.stepsizes, stepsize * weight ≤ 1

variable {run : Run α} {source : Source α} {shuffles : Shuffles}

theorem mem_of_parts? {p q : Progress α} {parts : List (List (Example α))}
    (dealt : (run.parts? source shuffles).run p = (.ok parts, q)) :
    ∀ e ∈ parts.flatten, e ∈ source.examples := by
  intro e member
  unfold parts? at dealt
  split_ifs at dealt
  · cases dealt
    rw [List.flatten_singleton] at member
    exact (List.mergeSort_perm _ _).mem_iff.mp member
  · cases dealt
    rwa [List.flatten_singleton] at member
  · obtain ⟨_, _, _, dealt⟩ := Update.run_bind_eq_ok.mp dealt
    obtain ⟨_, _, _, dealt⟩ := Update.run_bind_eq_ok.mp dealt
    split at dealt
    · rename_i count _
      rw [Update.run_ofExcept, Prod.mk.injEq] at dealt
      obtain ⟨dealt, -⟩ := dealt
      unfold Source.parts at dealt
      split_ifs at dealt with few
      cases dealt
      obtain ⟨n, positive⟩ : ∃ n, count.toNat = n + 1 := ⟨count.toNat - 1, by omega⟩
      rw [positive, Source.flatten_cut] at member
      obtain ⟨k, -, here⟩ := List.mem_filterMap.mp member
      exact List.mem_of_getElem? here
    · cases dealt

theorem pass_leads {σ ρ : Type} {m : Machine α σ ρ} {good : Example α → Prop} {holds : σ → Prop}
    (leads : m.Leads good holds) (all : ∀ e ∈ source.examples, good e) {p q : Progress α}
    {result : ρ} (done : (run.pass source shuffles m).run p = (.ok (some result), q)) :
    ∃ state, holds state ∧ m.result state = .ok (some result) := by
  unfold pass at done
  rw [Update.run_bind_ok (Update.run_modify _ _)] at done
  obtain ⟨parts, _, dealt, ran⟩ := Update.run_bind_eq_ok.mp done
  rw [Update.run_ofExcept, Prod.mk.injEq] at ran
  exact leads.run_ok (fun e member => all e (mem_of_parts? dealt e member)) ran.1

theorem bestTrial_reached (damped : run.Damped d weight) (trials : run.lineSearch = .bestBall)
    (within : ∀ e ∈ source.examples, e.features.Within bound) {seed : Option (Snapshot α)}
    (resumes : ∀ s ∈ seed, s.model.Reached weight bound) {p q : Progress α} {s : Snapshot α}
    (done : (run.bestTrial source shuffles seed).run p = (.ok (some s), q)) :
    s.model.Reached weight bound := by
  obtain ⟨t, snapshots, middle, made, ran, ending⟩ := bestTrial_ran done
  have each (i : Incremental α) (member : i ∈ t.trials) : i.origin.task.Damped d weight ∧
      ∀ s ∈ i.origin.previous, s.model.Reached weight bound := by
    obtain ⟨previous, stepsize, inside, given⟩ := Trials.exists_stepsize made i member
    obtain ⟨dimension, objective, same, regularization⟩ := Task.withStepsize_ok given
    refine ⟨⟨dimension.trans damped.dimension, objective ▸ damped.classifier,
      regularization.trans damped.regularization, ?_⟩, previous ▸ resumes⟩
    rw [same]
    exact damped.tried trials stepsize inside
  rcases ending with ⟨-, none, -⟩ | ⟨found, search, scored, winner, rfl, -, chosen, same⟩
  · cases none
  cases same
  have leads := Trials.leads (t := t) (fun i member => (each i member).1)
    fun i member => (each i member).2
  obtain ⟨states, reached, finished⟩ := pass_leads leads within ran
  obtain ⟨⟨i, state⟩, member, result⟩ :=
    Trials.exists_result finished (List.mem_of_getElem? chosen)
  exact ⟨state, reached state (List.of_mem_zip member).2,
    (Incremental.model_of_result result).symm⟩

variable [DenseSolver α]

theorem iteration_reached (damped : run.Damped d weight)
    (within : ∀ e ∈ source.examples, e.features.Within bound) {seed : Option (Snapshot α)}
    (resumes : ∀ s ∈ seed, s.model.Reached weight bound) {p q : Progress α} {s : Snapshot α}
    (done : (run.iteration source shuffles seed).run p = (.ok (some s), q)) :
    s.model.Reached weight bound := by
  unfold iteration at done
  split_ifs at done with trials
  · exact bestTrial_reached damped trials.2 within resumes done
  obtain ⟨o, _, made, done⟩ := Update.run_bind_eq_ok.mp done
  rw [Update.run_ofExcept, Prod.mk.injEq] at made
  obtain ⟨made, rfl⟩ := made
  obtain ⟨method, origin⟩ := optimizer_ok made
  rw [damped.method] at method
  cases o with
  | conjugate c => cases method
  | newton n => cases method
  | incremental i =>
    have fixed : run.lineSearch = .fixed := by
      cases known : run.lineSearch with
      | fixed => rfl
      | bestBall => exact absurd ⟨damped.method, known⟩ trials
    have same : i.origin = ⟨run.task, seed⟩ := origin
    have own : i.origin.task.Damped d weight := by
      rw [same]
      exact ⟨damped.dimension, damped.classifier, damped.regularization, damped.fixed fixed⟩
    have leads := Incremental.leads (i := i) own (by rwa [same])
    obtain ⟨state, reached, finished⟩ := pass_leads leads within done
    exact ⟨state, reached, (Incremental.model_of_result finished).symm⟩

end Run

namespace Incremental

theorem confined [DenseSolver α]
    (sigmoid : ∀ x : α, 0 ≤ Scalar.sigmoid x ∧ Scalar.sigmoid x ≤ 1)
    (positive : 0 < weight) (nonneg : ∀ j, 0 ≤ bound j) :
    (∀ model : Vec α, model.Reached weight bound → model.Within fun j => bound j / weight) ∧
    (∀ v w : Vec α, v.Reached weight bound → w.Reached weight bound →
      ∀ j, |Vec.entries d v j - Vec.entries d w j| ≤ 2 * bound j / weight) ∧
    ∀ (run : Run α) (source : Source α) (shuffles : Run.Shuffles)
      (previous : Option (Snapshot α)) (durable : Bool) (result : Except Error (Outcome α))
      (p : Progress α), run.Damped d weight →
      (∀ e ∈ source.examples, e.features.Within bound) →
      (∀ s ∈ previous, s.model.Reached weight bound) →
      (run.fit source shuffles previous).run (.fresh durable) = (result, p) →
      p.Keeps (fun s => s.model.Reached weight bound) ∧
        ∀ o, result = .ok o → ∀ s ∈ o.snapshot, s.model.Reached weight bound := by
  have within (model : Vec α) (reached : model.Reached weight bound) :
      model.Within fun j => bound j / weight := by
    obtain ⟨state, reached, rfl⟩ := reached
    exact (reached.bounded sigmoid positive nonneg).within
  refine ⟨within, fun v w reached reached' j => ?_, ?_⟩
  · calc |Vec.entries d v j - Vec.entries d w j|
        ≤ |Vec.entries d v j| + |Vec.entries d w j| := abs_sub _ _
      _ ≤ bound j / weight + bound j / weight :=
        add_le_add (within v reached j) (within w reached' j)
      _ = 2 * bound j / weight := by ring
  · intro run source shuffles previous durable result p damped inside resumes done
    have other : run.method ≠ .conjugate := by simp [damped.method]
    have fresh : (Progress.fresh durable).Keeps fun s : Snapshot α =>
        s.model.Reached weight bound := nofun
    have maintains : Update.Maintains (Progress.Keeps fun s => s.model.Reached weight bound)
        (run.fit source shuffles previous) fun o =>
          ∀ s ∈ o.snapshot, s.model.Reached weight bound :=
      Run.iterate_maintains other
        (fun _ _ _ _ resumes => Run.iteration_reached damped inside resumes) resumes
    have kept := maintains (.fresh durable) fresh
    rwa [done] at kept

theorem fold_unit :
    (⟨⟨.unit .svm, none⟩, rfl⟩ : Incremental ℝ).machine.fold [⟨[2], .plain 1⟩] none =
      .ok (some ⟨.unit .svm, [2], .fresh, { Totals.zero with loss := 0 }, 1⟩) := by
  let i : Incremental ℝ := ⟨⟨.unit .svm, none⟩, rfl⟩
  have started : i.machine.start = .ok ⟨.unit .svm, [0], .fresh, .zero, 0⟩ := rfl
  have moves : moved .svm (.unit .svm) [0] ⟨[2], .plain (1 : ℝ)⟩ = .ok [2] := by
    norm_num [moved, Objective.gradient, Label.sign, Vec.dot?, Vec.dot, Vec.scale, Vec.add?,
      Vec.combine, Penalty.smoothGradient, Penalty.shrink, Objective.penalty, Task.unit]
  have loss : Objective.loss .svm [2] ⟨[2], .plain (1 : ℝ)⟩ = .ok 0 := by
    norm_num [Objective.loss, Label.sign, Vec.dot?, Vec.dot]
  have kind : i.objective = .svm := rfl
  have absorbed : (i.machine.absorb ⟨[2], .plain 1⟩).exec ⟨.unit .svm, [0], .fresh, .zero, 0⟩ =
      .ok ⟨.unit .svm, [2], .fresh, { Totals.zero with loss := 0 }, 1⟩ := by
    change (i.strategy.absorb _).exec _ = _
    rw [Strategy.exec_absorb]
    change _ <$> (i.step _).exec _ = _
    simp only [step, Update.exec_get_bind, Update.exec_ofExcept_bind, kind, moves, ok_bind,
      Update.exec_bind_unit, Update.exec_modify, loss, map_ok]
    simp [Totals.zero]
  change i.machine.fold _ none = _
  rw [Machine.fold_cons, Machine.take_none, started, ok_bind, absorbed]
  rfl

theorem confined_pair :
    let i : Incremental ℝ := ⟨⟨.unit .svm, none⟩, rfl⟩
    let run : Run ℝ := ⟨.unit .svm, .incremental, some 0, 3, some 2, .tree, .polakRibiere,
      .bestBall, [1, 1 / 2], 100, 1000⟩
    let source : Source ℝ :=
      ⟨1, false, [⟨[2], .plain 1⟩, ⟨[-1], .plain 0⟩], by simp [Example.dimension, Label.isSurvival]⟩
    let bound : Fin 1 → ℝ := fun _ => 2
    (∃ state, i.machine.fold [⟨[2], .plain 1⟩] none = .ok (some state) ∧ state.model = [2] ∧
      state.model.Reached 1 bound ∧ state.model.Within fun j => bound j / 1) ∧
    ∀ shuffles p o, (run.fit source shuffles none).run (.fresh false) = (.ok o, p) →
      ∀ s ∈ o.snapshot, s.model.Within fun j => bound j / 1 := by
  intro i run source bound
  have nonneg (j : Fin 1) : 0 ≤ bound j := zero_le_two
  obtain ⟨within, -, fits⟩ := confined (α := ℝ) sigmoid_bounded one_pos nonneg
  have damped : i.origin.task.Damped 1 1 := ⟨rfl, .inl rfl, rfl, by simp [i, Task.unit]⟩
  have near (x : ℝ) (small : |x| ≤ 2) : Vec.Within bound [x] := by
    intro j
    rwa [Fin.fin_one_eq_zero j]
  refine ⟨?_, ?_⟩
  · have reached : Vec.Reached 1 bound [2] := by
      refine ⟨_, (leads damped (by simp [i])).fold ?_ ?_ fold_unit _ rfl, rfl⟩
      · simpa using near 2 (by norm_num)
      · simp
    exact ⟨_, fold_unit, rfl, reached, within _ reached⟩
  · intro shuffles p o done s known
    have steps : run.Damped 1 1 := ⟨rfl, rfl, .inl rfl, rfl, nofun, fun _ a member => by
      rcases List.mem_pair.mp member with rfl | rfl <;> norm_num⟩
    have inside : ∀ e ∈ source.examples, e.features.Within bound := by
      simp only [source, List.forall_mem_cons]
      exact ⟨near 2 (by norm_num), near (-1) (by norm_num), nofun⟩
    obtain ⟨-, kept⟩ := fits run source shuffles none false (.ok o) p steps inside nofun done
    exact within _ (kept o rfl s known)

end Incremental

end Passwise
