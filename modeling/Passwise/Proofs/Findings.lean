import Passwise.Snapshot.Cells
import Passwise.Trials
import Passwise.Proofs.Elimination
import Passwise.Proofs.Pass

set_option autoImplicit false

namespace Passwise

variable {α : Type} [Scalar α] {d : Nat}

structure Memory.Fits (d : Nat) (m : Memory α) : Prop where
  direction : ∀ v ∈ m.direction, v.length = d
  previousGradient : ∀ v ∈ m.previousGradient, v.length = d

structure Snapshot.Fits (d : Nat) (s : Snapshot α) : Prop where
  dimension : s.task.dimension = d
  model : s.model.length = d
  memory : s.memory.Fits d
  inverseDiagonal : ∀ v ∈ s.inverseDiagonal, v.length = d
  method : ∃ m : Method, s.method = .text m.name

namespace Origin

def memory (origin : Origin α) : Memory α := origin.previous.elim .fresh (·.memory)

def Resumable (origin : Origin α) : Prop :=
  ∀ s ∈ origin.previous, s.memory.Fits origin.task.dimension

theorem Resumable.memory {origin : Origin α} (resumable : origin.Resumable) :
    origin.memory.Fits origin.task.dimension := by
  unfold Origin.memory
  cases known : origin.previous with
  | none => exact ⟨nofun, nofun⟩
  | some s => exact resumable s known

end Origin

structure PassState.After (origin : Origin α) (k : Nat) (state : PassState α) : Prop where
  task : state.task = origin.task
  memory : state.memory = origin.memory
  rows : state.rows = k
  totals : state.totals.Fits origin.task.dimension

theorem Origin.start_ok {origin : Origin α} {state : PassState α}
    (started : origin.start = .ok state) :
    state.task = origin.task ∧ state.memory = origin.memory ∧ state.rows = 0 := by
  unfold start at started
  unfold memory
  cases known : origin.previous with
  | none =>
    rw [known] at started
    cases started
    exact ⟨rfl, rfl, rfl⟩
  | some s =>
    rw [known] at started
    dsimp only at started
    split_ifs at started
    cases started
    exact ⟨rfl, rfl, rfl⟩

namespace Strategy

-- The memory that a pass resumes from is carried over into what it finds, or the pass makes one of
-- its own.
structure Sound (s : Strategy α) (carries : Prop) : Prop where
  totals : s.totals.Fits s.origin.task.dimension
  step : ∀ k e, e.dimension = s.origin.task.dimension →
    Update.Ensures (PassState.After s.origin k) (s.step e) fun _ state =>
      state.After s.origin k ∧ state.model.length = s.origin.task.dimension
  finish : ∀ k state found, state.After s.origin k →
    state.model.length = s.origin.task.dimension → (carries → s.origin.Resumable) →
    s.finish state = .ok found → found.Fits s.origin.task.dimension

def Reached (s : Strategy α) (k : Nat) (state : PassState α) : Prop :=
  state.After s.origin k ∧ (0 < k → state.model.length = s.origin.task.dimension)

variable {s : Strategy α} {carries : Prop}

theorem Sound.tracks (sound : s.Sound carries) : s.machine.Tracks s.Reached where
  start := by
    intro state started
    obtain ⟨first, begun, started⟩ := bind_eq_ok.mp started
    cases started
    obtain ⟨task, memory, rows⟩ := Origin.start_ok begun
    exact ⟨⟨task, memory, rows, sound.totals⟩, nofun⟩
  absorb := by
    rintro k e state reached ⟨before, _⟩ accepted absorbed
    have size : e.dimension = s.origin.task.dimension := by
      change s.accepts e = .ok () at accepted
      unfold accepts at accepted
      split_ifs at accepted with size
      exact size
    have ensures : Update.Ensures (PassState.After s.origin k) (s.absorb e) fun _ state =>
        state.After s.origin (k + 1) ∧ state.model.length = s.origin.task.dimension :=
      .bind (sound.step k e size) fun _ => .modify fun state ⟨after, model⟩ =>
        ⟨⟨after.task, after.memory, by simp [after.rows], after.totals⟩, model⟩
    obtain ⟨_, after, model⟩ := ensures.exec before absorbed
    exact ⟨after, fun _ => model⟩

theorem Sound.result (sound : s.Sound carries) {k : Nat} (positive : 0 < k)
    {state : PassState α} (reached : s.Reached k state) (resumable : carries → s.origin.Resumable)
    {result : Option (Snapshot α)} (done : s.machine.result state = .ok result) :
    ∃ found, result = some found ∧ found.Fits s.origin.task.dimension := by
  change s.result state = .ok result at done
  have rows : state.rows ≠ 0 := by
    rw [reached.1.rows]
    omega
  rw [Strategy.result, if_neg rows] at done
  obtain ⟨found, finished, done⟩ := bind_eq_ok.mp done
  cases done
  exact ⟨found, rfl, sound.finish k state found reached.1 (reached.2 positive) resumable finished⟩

end Strategy

theorem Incremental.sound (i : Incremental α) : i.strategy.Sound True where
  totals := Totals.fits_zero
  step := by
    intro k e size
    refine .bind (.get fun _ after => after) fun state =>
      .bind (.ofExcept fun _ _ after _ => after) fun model =>
      .bind (Q := fun _ state => state.After i.origin k ∧ state.model = model)
        (.modify fun _ after => ⟨⟨after.task, after.memory, after.rows, after.totals⟩, rfl⟩)
      fun _ => .bind (Q := fun _ state => state.After i.origin k ∧
        state.model.length = i.origin.task.dimension) (.ofExcept ?_) fun loss => .modify ?_
    · rintro state loss ⟨after, rfl⟩ made
      exact ⟨after, (Objective.length_of_loss made).trans size⟩
    · rintro state ⟨after, model⟩
      have totals := after.totals
      exact ⟨⟨after.task, after.memory, after.rows,
        ⟨totals.gradient, totals.hessian, totals.risk⟩⟩, model⟩
  finish := by
    intro k state found after model resumable finished
    obtain ⟨_, _, finished⟩ := bind_eq_ok.mp finished
    obtain ⟨_, _, finished⟩ := bind_eq_ok.mp finished
    obtain ⟨_, _, finished⟩ := bind_eq_ok.mp finished
    cases finished
    have memory := (resumable trivial).memory
    exact ⟨after.task ▸ rfl, model, after.memory ▸ memory, nofun, .incremental, rfl⟩

theorem PassState.addExample_after {origin : Origin α} {k : Nat} {e : Example α}
    (size : e.dimension = origin.task.dimension) (o : Objective) :
    Update.Ensures (PassState.After origin k) (do
      let model := (← get).model
      Update.onPart PassState.totals (fun totals state => { state with totals := totals })
        (Totals.addExample o model e)) fun _ state =>
      state.After origin k ∧ state.model.length = origin.task.dimension := by
  intro state _ reached after done
  obtain ⟨_, _, here, done⟩ := Update.run_bind_eq_ok.mp done
  cases here
  have ensures : Update.Ensures (fun s => s = state) (Update.onPart PassState.totals
      (fun totals state => { state with totals := totals }) (Totals.addExample o state.model e))
      fun _ state => state.After origin k ∧ state.model.length = origin.task.dimension := by
    refine .onPart (Totals.addExample_fits o state.model size)
      (fun _ same => same ▸ after.totals) ?_
    rintro _ _ totals rfl ⟨fits, model⟩
    exact ⟨⟨after.task, after.memory, after.rows, fits⟩, model.trans size⟩
  exact ensures rfl done

namespace Conjugate

theorem length_direction {rule : BetaRule} {gradient v : Vec α} {memory : Memory α}
    (made : direction rule gradient memory = .ok v) : v.length = gradient.length := by
  unfold direction at made
  split at made
  · dsimp only at made
    split_ifs at made
    · cases made
      simp
    · cases made
      simp
    · obtain ⟨weight, _, made⟩ := bind_eq_ok.mp made
      obtain ⟨bent, _, made⟩ := bind_eq_ok.mp made
      obtain ⟨slope, sloped, made⟩ := bind_eq_ok.mp made
      cases made
      have size := Vec.length_dot? sloped
      split_ifs
      · simp
      · exact size.symm
  · cases made
    simp

theorem length_sums {c : Conjugate α} {state : PassState α} {gradient : Vec α} {loss : α}
    (fits : state.totals.Fits d) (model : state.model.length = d)
    (summed : c.sums state = .ok (gradient, loss)) : gradient.length = d := by
  obtain ⟨own, penalty, summed⟩ := bind_eq_ok.mp summed
  obtain ⟨sum, added, summed⟩ := bind_eq_ok.mp summed
  obtain ⟨_, _, summed⟩ := bind_eq_ok.mp summed
  obtain ⟨_, _, summed⟩ := bind_eq_ok.mp summed
  obtain ⟨_, _, summed⟩ := bind_eq_ok.mp summed
  cases summed
  rcases known : state.totals.gradient with _ | total
  · rw [known] at added
    cases added
  · rw [known] at added
    exact Vec.length_combine (fits.gradient total known)
      ((Penalty.length_gradient penalty).trans model) added

theorem sound (c : Conjugate α) : c.strategy.Sound False where
  totals := Totals.fits_firstOrder
  step := fun _ _ size => PassState.addExample_after size _
  finish := by
    intro k state found after model _ finished
    obtain ⟨⟨gradient, loss⟩, summed, finished⟩ := bind_eq_ok.mp finished
    obtain ⟨v, directed, finished⟩ := bind_eq_ok.mp finished
    obtain ⟨_, _, finished⟩ := bind_eq_ok.mp finished
    cases finished
    have size := length_sums after.totals model summed
    refine ⟨after.task ▸ rfl, model, ⟨?_, ?_⟩, nofun, .conjugate, rfl⟩
    · rintro _ ⟨⟩
      exact (length_direction directed).trans size
    · rintro _ ⟨⟩
      exact size

end Conjugate

namespace Newton

theorem closedSums_fits {n : Newton α} {totals : Totals α} {c : Contribution α}
    (fits : totals.Fits d) (made : n.closedSums totals = .ok c) : c.Fits d := by
  unfold closedSums at made
  split at made
  case h_2 => cases made
  case h_1 gradient hessian knownGradient knownHessian =>
    have own : (⟨gradient, hessian, totals.loss⟩ : Contribution α).Fits d :=
      ⟨fits.gradient gradient knownGradient, fits.hessian hessian knownHessian⟩
    split at made
    · cases made
      exact own
    · rename_i risk knownRisk
      split_ifs at made
      · cases made
        exact own
      · obtain ⟨pending, closed, made⟩ := bind_eq_ok.mp made
        obtain ⟨g, gradients, made⟩ := bind_eq_ok.mp made
        obtain ⟨h, hessians, made⟩ := bind_eq_ok.mp made
        cases made
        have last : pending.Fits d :=
          (RiskSet.absorbGroup_fits (fits.risk risk knownRisk) (Prod.ext closed rfl)).1
        exact ⟨Vec.length_combine own.gradient last.gradient gradients,
          Mat.square_combine own.hessian last.hessian hessians⟩

theorem penalized_fits {n : Newton α} {state : PassState α} {c : Contribution α}
    (fits : state.totals.Fits state.task.dimension)
    (model : state.model.length = state.task.dimension) (made : n.penalized state = .ok c) :
    c.Fits state.task.dimension := by
  obtain ⟨sums, closed, made⟩ := bind_eq_ok.mp made
  obtain ⟨g, penaltyGradient, made⟩ := bind_eq_ok.mp made
  obtain ⟨gradient, gradients, made⟩ := bind_eq_ok.mp made
  obtain ⟨h, penaltyHessian, made⟩ := bind_eq_ok.mp made
  obtain ⟨hessian, hessians, made⟩ := bind_eq_ok.mp made
  obtain ⟨_, _, made⟩ := bind_eq_ok.mp made
  cases made
  have own := closedSums_fits fits closed
  exact ⟨Vec.length_combine own.gradient
      ((Penalty.length_gradient penaltyGradient).trans model) gradients,
    Mat.square_combine own.hessian (Penalty.square_hessian penaltyHessian) hessians⟩

variable [DenseSolver α] [DenseSolver.Shaped α]

theorem sound (n : Newton α) : n.strategy.Sound False where
  totals := Totals.fits_secondOrder
  step := fun _ _ size => PassState.addExample_after size _
  finish := by
    intro k state found after model _ finished
    obtain ⟨sums, summed, finished⟩ := bind_eq_ok.mp finished
    obtain ⟨_, _, finished⟩ := bind_eq_ok.mp finished
    obtain ⟨_, _, finished⟩ := bind_eq_ok.mp finished
    obtain ⟨_, _, finished⟩ := bind_eq_ok.mp finished
    dsimp only at finished
    split_ifs at finished
    · cases finished
    obtain ⟨change, solved, finished⟩ := bind_eq_ok.mp finished
    obtain ⟨inverse, inverted, finished⟩ := bind_eq_ok.mp finished
    obtain ⟨moved, combined, finished⟩ := bind_eq_ok.mp finished
    obtain ⟨_, _, finished⟩ := bind_eq_ok.mp finished
    obtain ⟨_, _, finished⟩ := bind_eq_ok.mp finished
    cases finished
    have fits : sums.Fits n.origin.task.dimension := by
      have same : state.task = n.strategy.origin.task := after.task
      rw [← show state.task = n.origin.task from same]
      exact penalized_fits (same ▸ after.totals) (same ▸ model) summed
    refine ⟨after.task ▸ rfl, Vec.length_combine model ?_ combined, ⟨nofun, nofun⟩, ?_, .newton,
      rfl⟩
    · exact DenseSolver.Shaped.length_solve fits.hessian fits.gradient solved
    · rintro _ ⟨⟩
      exact Mat.length_diagonal (DenseSolver.Shaped.square_inverse fits.hessian inverted)

end Newton

theorem Task.withStepsize_ok {task other : Task α} {stepsize : α}
    (made : task.withStepsize stepsize = .ok other) : other.dimension = task.dimension ∧
      other.objective = task.objective ∧ other.stepsize = stepsize ∧
      other.regularization = task.regularization := by
  unfold withStepsize make at made
  split_ifs at made
  cases made
  exact ⟨rfl, rfl, rfl, rfl⟩

namespace Trials

variable {t : Trials α}

theorem exists_stepsize {task : Task α} {stepsizes : List α} {previous : Option (Snapshot α)}
    (made : make task stepsizes previous = .ok t) : ∀ i ∈ t.trials, i.origin.previous = previous ∧
      ∃ stepsize ∈ stepsizes, task.withStepsize stepsize = .ok i.origin.task := by
  unfold make at made
  split_ifs at made
  obtain ⟨trials, each, made⟩ := bind_eq_ok.mp made
  cases made
  intro i member
  obtain ⟨stepsize, inside, made⟩ := exists_of_mem_mapM each member
  obtain ⟨trial, given, made⟩ := bind_eq_ok.mp made
  unfold Incremental.ofOrigin at made
  split_ifs at made
  cases made
  exact ⟨rfl, stepsize, inside, given⟩

theorem make_ok {task : Task α} {stepsizes : List α} {previous : Option (Snapshot α)}
    (made : make task stepsizes previous = .ok t) : ∀ i ∈ t.trials,
      i.origin.task.dimension = task.dimension ∧ i.origin.previous = previous := by
  intro i member
  obtain ⟨same, stepsize, -, given⟩ := exists_stepsize made i member
  exact ⟨(Task.withStepsize_ok given).1, same⟩

def Reached (t : Trials α) (k : Nat) (states : List (PassState α)) : Prop :=
  List.Forall₂ (fun i state => i.strategy.Reached k state) t.trials states

theorem tracks (t : Trials α) : t.machine.Tracks t.Reached where
  start := by
    intro states started
    exact (forall₂_of_mapM started).imp fun i state begun => i.sound.tracks.start state begun
  absorb := by
    intro k e states reached before _ absorbed
    refine Update.forall₂_of_exec_each before ?_ absorbed
    intro j i state moved here tracked taken
    rw [here] at taken
    dsimp only at taken
    rw [Update.exec_ofExcept_bind] at taken
    obtain ⟨_, accepted, taken⟩ := bind_eq_ok.mp taken
    exact i.sound.tracks.absorb k e state moved tracked accepted taken

theorem result_ok {states : List (PassState α)} {result : Option (List (Snapshot α))}
    (each : ∀ pair ∈ t.trials.zip states, ∀ entry, pair.1.machine.result pair.2 = .ok entry →
      ∃ s, entry = some s)
    (done : t.result states = .ok result) :
    ∃ found, result = some found ∧ List.Forall₂ (fun pair s =>
      pair.1.machine.result pair.2 = .ok (some s)) (t.trials.zip states) found := by
  obtain ⟨entries, made, done⟩ := bind_eq_ok.mp done
  cases done
  have related := List.forall₂_iff_zip.mp (forall₂_of_mapM made)
  refine mapM_id_of_forall₂ (List.forall₂_iff_zip.mpr ⟨related.1, fun {pair entry} member => ?_⟩)
  have finished := related.2 member
  obtain ⟨s, rfl⟩ := each pair (List.of_mem_zip member).1 entry finished
  exact ⟨s, rfl, finished⟩

theorem result_of_each {states : List (PassState α)}
    {R : Incremental α × PassState α → Snapshot α → Prop}
    (each : ∀ pair ∈ t.trials.zip states, ∃ s,
      pair.1.machine.result pair.2 = .ok (some s) ∧ R pair s) :
    ∃ found, t.result states = .ok (some found) ∧ List.Forall₂ (fun pair s =>
      pair.1.machine.result pair.2 = .ok (some s) ∧ R pair s) (t.trials.zip states) found := by
  have goes : List.Forall₂ (fun pair (pair' : Incremental α × PassState α) => ∃ entry,
      pair'.1.machine.result pair'.2 = .ok entry ∧ ∃ s, entry = some s ∧
        pair.1.machine.result pair.2 = .ok (some s) ∧ R pair s)
      (t.trials.zip states) (t.trials.zip states) := by
    refine List.forall₂_same.mpr fun pair member => ?_
    obtain ⟨s, finished, related⟩ := each pair member
    exact ⟨some s, finished, s, rfl, finished, related⟩
  obtain ⟨entries, made, related⟩ := mapM_of_forall₂ goes
  obtain ⟨found, whole, related⟩ := mapM_id_of_forall₂ related
  refine ⟨found, ?_, related⟩
  rw [result, made, ok_bind, whole]
  rfl

theorem result_fits {k : Nat} (positive : 0 < k) {states : List (PassState α)}
    (reached : t.Reached k states) (sized : ∀ i ∈ t.trials, i.origin.task.dimension = d)
    (resumable : ∀ i ∈ t.trials, i.origin.Resumable)
    {result : Option (List (Snapshot α))} (done : t.result states = .ok result) :
    ∃ found, result = some found ∧ ∀ s ∈ found, s.Fits d := by
  have fits (pair : Incremental α × PassState α) (member : pair ∈ t.trials.zip states)
      (entry : Option (Snapshot α)) (finished : pair.1.machine.result pair.2 = .ok entry) :
      ∃ s, entry = some s ∧ s.Fits d := by
    obtain ⟨i, state⟩ := pair
    have trial := (List.of_mem_zip member).1
    have here := (List.forall₂_iff_zip.mp reached).2 member
    obtain ⟨s, same, whole⟩ :=
      i.sound.result positive here (fun _ => resumable i trial) finished
    exact ⟨s, same, sized i trial ▸ whole⟩
  obtain ⟨found, rfl, related⟩ := result_ok (t := t) (fun pair member entry finished =>
    (fits pair member entry finished).imp fun _ whole => whole.1) done
  refine ⟨found, rfl, fun s member => ?_⟩
  obtain ⟨pair, inside, finished⟩ := exists_of_forall₂ related member
  obtain ⟨_, same, whole⟩ := fits pair inside (some s) finished
  cases same
  exact whole

end Trials

theorem Snapshot.Fits.advance {s moved : Snapshot α} {stepsize : α} (fits : s.Fits d)
    (advanced : s.advance stepsize = .ok moved) : moved.Fits d := by
  unfold Snapshot.advance at advanced
  rcases known : s.memory.direction with _ | direction
  · rw [known] at advanced
    cases advanced
  · rw [known] at advanced
    obtain ⟨_, _, advanced⟩ := bind_eq_ok.mp advanced
    dsimp only at advanced
    split_ifs at advanced
    · cases advanced
    obtain ⟨_, _, advanced⟩ := bind_eq_ok.mp advanced
    obtain ⟨model, added, advanced⟩ := bind_eq_ok.mp advanced
    cases advanced
    have along (factor : α) : (Vec.scale factor direction).length = d :=
      (Vec.length_scale factor direction).trans (fits.memory.direction direction known)
    exact ⟨fits.dimension, Vec.length_combine fits.model (along _) added, fits.memory,
      fits.inverseDiagonal, fits.method⟩

end Passwise
