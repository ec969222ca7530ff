import Passwise.Proofs.Averaging
import Passwise.Proofs.Counting
import Passwise.Proofs.Forward
import Passwise.Proofs.Scoring

set_option autoImplicit false

namespace Passwise

namespace Machine

variable {α σ σ' ρ ρ' : Type}

-- Two machines that both take every good example and join all states, always in related states.
structure InStep (m : Machine α σ ρ) (m' : Machine α σ' ρ') (good : Example α → Prop)
    (R : σ → σ' → Prop) : Prop where
  first : ∀ e, good e → ∃ s s', (m.take e).exec none = .ok (some s) ∧
    (m'.take e).exec none = .ok (some s') ∧ R s s'
  next : ∀ e a a', good e → R a a' → ∃ s s', (m.take e).exec (some a) = .ok (some s) ∧
    (m'.take e).exec (some a') = .ok (some s') ∧ R s s'
  join : ∀ a a' b b', R a a' → R b b' → ∃ s s', m.join a b = .ok s ∧ m'.join a' b' = .ok s' ∧
    R s s'

namespace InStep

variable {m : Machine α σ ρ} {m' : Machine α σ' ρ'} {good : Example α → Prop} {R : σ → σ' → Prop}

theorem fold_some (inStep : m.InStep m' good R) {xs : List (Example α)} (all : ∀ e ∈ xs, good e)
    {a : σ} {a' : σ'} (related : R a a') :
    ∃ s s', m.fold xs (some a) = .ok (some s) ∧ m'.fold xs (some a') = .ok (some s') ∧ R s s' := by
  induction xs generalizing a a' with
  | nil => exact ⟨a, a', rfl, rfl, related⟩
  | cons e xs ih =>
    obtain ⟨b, b', taken, taken', next⟩ := inStep.next e a a' (all e (by simp)) related
    rw [fold_cons, fold_cons, taken, taken', ok_bind, ok_bind]
    exact ih (fun x member => all x (by simp [member])) next

theorem fold_none (inStep : m.InStep m' good R) {xs : List (Example α)}
    (all : ∀ e ∈ xs, good e) :
    ∃ last last', m.fold xs none = .ok last ∧ m'.fold xs none = .ok last' ∧
      Option.Rel R last last' := by
  cases xs with
  | nil => exact ⟨none, none, rfl, rfl, .none⟩
  | cons e xs =>
    obtain ⟨a, a', taken, taken', first⟩ := inStep.first e (all e (by simp))
    obtain ⟨s, s', folded, folded', after⟩ :=
      inStep.fold_some (fun x (member : x ∈ xs) => all x (by simp [member])) first
    refine ⟨some s, some s', ?_, ?_, .some after⟩
    · rw [fold_cons, taken, ok_bind, folded]
    · rw [fold_cons, taken', ok_bind, folded']

theorem mapM_fold (inStep : m.InStep m' good R) {parts : List (List (Example α))}
    (all : ∀ e ∈ parts.flatten, good e) :
    ∃ states states', parts.mapM (m.fold · none) = .ok states ∧
      parts.mapM (m'.fold · none) = .ok states' ∧ List.Forall₂ (Option.Rel R) states states' := by
  induction parts with
  | nil => exact ⟨[], [], rfl, rfl, .nil⟩
  | cons part parts ih =>
    obtain ⟨last, last', folded, folded', head⟩ :=
      inStep.fold_none fun e (member : e ∈ part) => all e (by simp [member])
    obtain ⟨states, states', rest, rest', tail⟩ :=
      ih fun e member => all e (by simp_all)
    refine ⟨last :: states, last' :: states', ?_, ?_, .cons head tail⟩
    · rw [List.mapM_cons, folded, ok_bind, rest]
      rfl
    · rw [List.mapM_cons, folded', ok_bind, rest']
      rfl

theorem merge_respects (inStep : m.InStep m' good R) :
    Shape.Respects (Option.Rel R) m.merge m'.merge := by
  intro a b a' b' left right
  cases left with
  | none => exact ⟨b, b', rfl, rfl, right⟩
  | some before =>
    cases right with
    | none => exact ⟨_, _, rfl, rfl, .some before⟩
    | some after =>
      obtain ⟨s, s', joined, joined', both⟩ := inStep.join _ _ _ _ before after
      refine ⟨some s, some s', ?_, ?_, .some both⟩
      · rw [merge, joined]
        rfl
      · rw [merge, joined']
        rfl

theorem run_eq (inStep : m.InStep m' good R) (shape : Shape) {parts : List (List (Example α))}
    (all : ∀ e ∈ parts.flatten, good e) (nonempty : parts.flatten ≠ []) :
    ∃ s s', R s s' ∧ m.run shape parts = m.result s ∧ m'.run shape parts = m'.result s' := by
  obtain ⟨states, states', folded, folded', each⟩ := inStep.mapM_fold all
  obtain ⟨last, last', reduced, reduced', related⟩ :=
    Shape.reduce_related inStep.merge_respects shape each
  have combined : m.combine shape states = .ok last.join := by
    rw [combine, reduced]
    rfl
  have combined' : m'.combine shape states' = .ok last'.join := by
    rw [combine, reduced']
    rfl
  have tells : m.Tells fun _ _ => True :=
    ⟨fun _ _ => trivial, fun _ _ _ _ _ _ _ => trivial, fun _ _ _ _ _ _ _ _ _ _ => trivial⟩
  have stands :=
    tells.stands_of_combine ((forall₂_of_mapM folded).imp fun _ _ => tells.fold_none) combined
  have ran : m.run shape parts = m.conclude last.join := by
    rw [run, folded, ok_bind, combined, ok_bind]
  have ran' : m'.run shape parts = m'.conclude last'.join := by
    rw [run, folded', ok_bind, combined', ok_bind]
  cases related with
  | none => exact absurd stands nonempty
  | some inside =>
    cases inside with
    | none => exact absurd stands nonempty
    | some after => exact ⟨_, _, after, ran, ran'⟩

end InStep

end Machine

variable {α : Type} [Exact α] {d : Nat}

theorem Penalty.shrink_of (p : Penalty) (stepsize weight : α) (w : Fin d → α) :
    ∃ v : Fin d → α, p.shrink stepsize weight (Vec.of w) = .ok (Vec.of v) := by
  cases p with
  | l1 =>
    refine ⟨fun i => Scalar.sign (w i) * max 0 (|w i| - stepsize * weight), ?_⟩
    simp [shrink, softThreshold, Vec.map_of]
  | l2 => exact ⟨w, rfl⟩

theorem Penalty.smoothGradient_of (p : Penalty) (weight : α) (w : Fin d → α) :
    ∃ g : Fin d → α, p.smoothGradient weight (Vec.of w) = .ok (Vec.of g) := by
  cases p with
  | l1 => exact ⟨0, by simp [smoothGradient]⟩
  | l2 => exact ⟨weight • w, by simp [smoothGradient]⟩

namespace Incremental

theorem moved_of {o : Objective} (separable : o.usesRiskSet = false) (task : Task α)
    (w : Fin d → α) {e : Example α} (alike : e.Alike d false) :
    ∃ v : Fin d → α, moved o task (Vec.of w) e = .ok (Vec.of v) := by
  have own := Objective.gradient_of separable w (Vec.entries d e.features) e.label.number
  rw [Vec.of_entries alike.1, ← Label.eq_plain alike.2] at own
  obtain ⟨g, smooth⟩ := o.penalty.smoothGradient_of task.regularization w
  rw [moved, own, ok_bind, smooth, ok_bind, Vec.add?_of, ok_bind, Exact.factor_eq, ok_bind,
    Vec.scale_of, Vec.combine_of, ok_bind]
  exact o.penalty.shrink_of _ _ _

structure Ready (i : Incremental α) (least : Int) (state : PassState α) : Prop where
  task : state.task = i.origin.task
  model : state.model.length = i.origin.task.dimension
  rows : least ≤ state.rows

variable {i : Incremental α} {state left right : PassState α}

theorem start_ready (fitting : i.origin.Fitting) :
    ∃ state, i.machine.start = .ok state ∧ i.Ready 0 state := by
  obtain ⟨w, started⟩ := Strategy.start_of (s := i.strategy) fitting
  exact ⟨_, started, rfl, Vec.length_of w, le_rfl⟩

theorem absorb_ready (ready : i.Ready 0 state) {e : Example α}
    (alike : e.Alike i.origin.task.dimension false) :
    i.machine.accepts e = .ok () ∧
      ∃ next, (i.machine.absorb e).exec state = .ok next ∧ i.Ready 1 next := by
  have current := Vec.of_entries ready.model
  obtain ⟨v, moves⟩ := moved_of (o := i.objective) i.separable i.origin.task
    (Vec.entries i.origin.task.dimension state.model) alike
  have loss := Objective.loss_of_alike (o := i.objective) i.separable v alike
  rw [current] at moves
  refine ⟨if_pos alike.1, ?_⟩
  change ∃ next, (i.strategy.absorb e).exec state = _ ∧ _
  rw [Strategy.exec_absorb]
  change ∃ next, _ <$> (i.step e).exec state = _ ∧ _
  simp only [step, Update.exec_get_bind, Update.exec_ofExcept_bind, ready.task, moves, ok_bind,
    Update.exec_bind_unit, Update.exec_modify, loss, map_ok]
  refine ⟨_, rfl, rfl, Vec.length_of v, ?_⟩
  have rows := ready.rows
  dsimp only
  omega

theorem join_ready (before : i.Ready 1 left) (after : i.Ready 1 right) :
    ∃ whole, i.machine.join left right = .ok whole ∧ i.Ready 1 whole := by
  have same : left.task.dimension = right.task.dimension := by rw [before.task, after.task]
  have rows := before.rows
  have rows' := after.rows
  have taken : left.rows + right.rows ≠ 0 := by omega
  change ∃ whole, i.strategy.join left right = _ ∧ _
  rw [Strategy.join, if_pos same]
  change ∃ whole, (joined left right >>= _) = _ ∧ _
  rw [joined, meanModel_of before.model after.model, if_neg taken]
  refine ⟨_, rfl, before.task, Vec.length_of _, ?_⟩
  dsimp only
  omega

theorem result_ready [Exact.Finite α] (ready : i.Ready 1 state) :
    ∃ found, i.machine.result state = .ok (some found) ∧ found.task = i.origin.task ∧
      found.model.length = i.origin.task.dimension := by
  have rows := ready.rows
  have taken : state.rows ≠ 0 := by omega
  have penalty := i.objective.penalty.loss_of state.task.regularization
    (Vec.entries i.origin.task.dimension state.model)
  rw [Vec.of_entries ready.model] at penalty
  change ∃ found, i.strategy.result state = _ ∧ _
  rw [Strategy.result, if_neg taken]
  change ∃ found, (i.finish state >>= _) = _ ∧ _
  simp only [finish, penalty, requireFiniteVec_ok, requireFinite_ok, ok_bind]
  exact ⟨_, rfl, ready.task, ready.model⟩

end Incremental

namespace Trials

structure Aligned (t : Trials α) (least : Int) (k : Nat) (states : List (PassState α))
    (state : PassState α) : Prop where
  each : List.Forall₂ (fun i state => Incremental.Ready i least state) t.trials states
  here : states[k]? = some state

def Fitting (t : Trials α) (d : Nat) : Prop :=
  ∀ i ∈ t.trials, i.origin.Fitting ∧ i.origin.task.dimension = d

variable {t : Trials α} {k : Nat} {i : Incremental α} {states : List (PassState α)}
  {state : PassState α}

theorem aligned_of {least : Int} {β : Type} {f : β → Except Error (PassState α)} {xs : List β}
    (goes : List.Forall₂ (fun i x => ∃ s, f x = .ok s ∧ Incremental.Ready i least s) t.trials xs)
    {x : β} (here : xs[k]? = some x) :
    ∃ states state, xs.mapM f = .ok states ∧ f x = .ok state ∧
      t.Aligned least k states state := by
  obtain ⟨states, made, each⟩ := mapM_of_forall₂ goes
  obtain ⟨state, reached, own⟩ := getElem?_forall₂ (forall₂_of_mapM made) here
  exact ⟨states, state, made, own, each, reached⟩

theorem start_aligned (fitting : t.Fitting d) (known : t.trials[k]? = some i) :
    ∃ states state, t.machine.start = .ok states ∧ i.machine.start = .ok state ∧
      t.Aligned 0 k states state := by
  have goes : List.Forall₂ (fun i j => ∃ s, j.machine.start = .ok s ∧ Incremental.Ready i 0 s)
      t.trials t.trials :=
    List.forall₂_same.mpr fun i member => Incremental.start_ready (fitting i member).1
  exact aligned_of goes known

theorem Aligned.ready {least : Int} (aligned : t.Aligned least k states state)
    (known : t.trials[k]? = some i) : i.Ready least state := by
  obtain ⟨s, here, ready⟩ := getElem?_forall₂ aligned.each known
  rw [aligned.here, Option.some.injEq] at here
  exact here ▸ ready

def absorbAt (t : Trials α) (e : Example α) (pair : PassState α × Nat) :
    Except Error (PassState α) :=
  match t.trials[pair.2]? with
  | none => .ok pair.1
  | some i => do
    i.machine.accepts e
    (i.machine.absorb e).exec pair.1

theorem exec_absorb (t : Trials α) (e : Example α) (states : List (PassState α)) :
    (t.absorb e).exec states = states.zipIdx.mapM (t.absorbAt e) := by
  rw [absorb, Update.exec_each_zipIdx]
  congr 1
  funext pair
  unfold absorbAt
  cases t.trials[pair.2]? with
  | none => rfl
  | some i => exact Update.exec_ofExcept_bind _ _ _

theorem absorbAt_of {pair : PassState α × Nat} (place : t.trials[pair.2]? = some i)
    {e : Example α} (accepted : i.machine.accepts e = .ok ()) :
    t.absorbAt e pair = (i.machine.absorb e).exec pair.1 := by
  rw [absorbAt, place]
  dsimp only
  rw [accepted, ok_bind]

theorem absorb_aligned (fitting : t.Fitting d) (known : t.trials[k]? = some i)
    (aligned : t.Aligned 0 k states state) {e : Example α} (alike : e.Alike d false) :
    ∃ states' state', (t.machine.absorb e).exec states = .ok states' ∧
      (i.machine.absorb e).exec state = .ok state' ∧ t.Aligned 1 k states' state' := by
  have here : states.zipIdx[k]? = some (state, k) := by simp [aligned.here]
  have goes : List.Forall₂
      (fun i pair => ∃ s, t.absorbAt e pair = .ok s ∧ Incremental.Ready i 1 s)
      t.trials states.zipIdx := by
    refine (forall₂_zipIdx aligned.each).imp fun i pair ⟨ready, place⟩ => ?_
    have same := (fitting i (List.mem_of_getElem? place)).2
    obtain ⟨accepted, s, absorbed, after⟩ := Incremental.absorb_ready ready (same ▸ alike)
    exact ⟨s, (absorbAt_of place accepted).trans absorbed, after⟩
  obtain ⟨states', state', made, own, after⟩ := aligned_of goes here
  refine ⟨states', state', ?_, ?_, after⟩
  · exact (t.exec_absorb e states).trans made
  · have same := (fitting i (List.mem_of_getElem? known)).2
    obtain ⟨accepted, -⟩ := Incremental.absorb_ready (aligned.ready known) (same ▸ alike)
    have same : t.absorbAt e (state, k) = (i.machine.absorb e).exec state :=
      absorbAt_of known accepted
    exact same.symm.trans own

theorem join_aligned (known : t.trials[k]? = some i) {left right : List (PassState α)}
    {a b : PassState α} (before : t.Aligned 1 k left a) (after : t.Aligned 1 k right b) :
    ∃ states state, t.machine.join left right = .ok states ∧ i.machine.join a b = .ok state ∧
      t.Aligned 1 k states state := by
  have selves : List.Forall₂ Eq t.trials t.trials := List.forall₂_same.mpr fun _ _ => rfl
  have goes : List.Forall₂ (fun i (entry : Incremental α × PassState α × PassState α) =>
      ∃ s, entry.1.machine.join entry.2.1 entry.2.2 = .ok s ∧ Incremental.Ready i 1 s)
      t.trials (t.trials.zip (left.zip right)) := by
    refine (forall₂_zip selves (forall₂_zip before.each after.each)).imp ?_
    rintro i ⟨_, a, b⟩ ⟨rfl, ready, ready'⟩
    exact Incremental.join_ready ready ready'
  have here : (t.trials.zip (left.zip right))[k]? = some (i, a, b) := by
    rw [List.getElem?_zip_eq_some, List.getElem?_zip_eq_some]
    exact ⟨known, before.here, after.here⟩
  exact aligned_of goes here

theorem in_step (fitting : t.Fitting d) (known : t.trials[k]? = some i) :
    t.machine.InStep i.machine (Example.Alike d false) (t.Aligned 1 k) := by
  have accepts (e : Example α) (alike : e.Alike d false) : i.machine.accepts e = .ok () :=
    if_pos (alike.1.trans (fitting i (List.mem_of_getElem? known)).2.symm)
  constructor
  case first =>
    intro e alike
    obtain ⟨start, start', started, started', fresh⟩ := start_aligned fitting known
    obtain ⟨states, state, absorbed, absorbed', after⟩ := absorb_aligned fitting known fresh alike
    refine ⟨states, state, ?_, ?_, after⟩
    · rw [Machine.take_none, started, ok_bind, absorbed]
      rfl
    · rw [Machine.take_none, accepts e alike, ok_bind, started', ok_bind, absorbed']
      rfl
  case next =>
    intro e states state alike aligned
    have before : t.Aligned 0 k states state := by
      refine ⟨aligned.each.imp fun i s ready => ⟨ready.task, ready.model, ?_⟩, aligned.here⟩
      have rows := ready.rows
      omega
    obtain ⟨states', state', absorbed, absorbed', after⟩ :=
      absorb_aligned fitting known before alike
    refine ⟨states', state', ?_, ?_, after⟩
    · rw [Machine.take_some, absorbed]
      rfl
    · rw [Machine.take_some, accepts e alike, ok_bind, absorbed']
      rfl
  case join => exact fun left a right b before after => join_aligned known before after

variable [Exact.Finite α]

theorem result_aligned (aligned : t.Aligned 1 k states state) (known : t.trials[k]? = some i) :
    ∃ snapshots s, t.machine.result states = .ok (some snapshots) ∧
      snapshots.length = t.trials.length ∧ snapshots[k]? = some s ∧
      i.machine.result state = .ok (some s) := by
  obtain ⟨snapshots, done, related⟩ := result_of_each (R := fun _ _ => True) fun pair member => by
    have ready := (List.forall₂_iff_zip.mp aligned.each).2 member
    obtain ⟨found, same, -⟩ := Incremental.result_ready ready
    exact ⟨found, same, trivial⟩
  have here : (t.trials.zip states)[k]? = some (i, state) := by
    rw [List.getElem?_zip_eq_some]
    exact ⟨known, aligned.here⟩
  obtain ⟨s, place, own, -⟩ := getElem?_forall₂ related here
  refine ⟨snapshots, s, done, ?_, place, own⟩
  rw [← related.length_eq, List.length_zip, ← aligned.each.length_eq, Nat.min_self]

theorem run_alone (fitting : t.Fitting d) (given : t.trials ≠ []) (shape : Shape)
    {parts : List (List (Example α))} (alike : ∀ e ∈ parts.flatten, e.Alike d false)
    (nonempty : parts.flatten ≠ []) :
    ∃ snapshots, t.machine.run shape parts = .ok (some snapshots) ∧
      snapshots.length = t.trials.length ∧
      ∀ (k : Nat) i, t.trials[k]? = some i → ∃ s, snapshots[k]? = some s ∧
        i.machine.run shape parts = .ok (some s) ∧ s.task = i.origin.task ∧
        s.model.length = d ∧ s.rows = Scalar.ofInt parts.flatten.length := by
  have each (k : Nat) (i) (known : t.trials[k]? = some i) :
      ∃ snapshots s, t.machine.run shape parts = .ok (some snapshots) ∧
        snapshots.length = t.trials.length ∧ snapshots[k]? = some s ∧
        i.machine.run shape parts = .ok (some s) ∧ s.task = i.origin.task ∧
        s.model.length = d := by
    obtain ⟨states, state, aligned, ran, ran'⟩ :=
      (in_step fitting known).run_eq shape alike nonempty
    obtain ⟨snapshots, s, done, length, place, own⟩ := result_aligned aligned known
    obtain ⟨found, done', task, model⟩ := Incremental.result_ready (aligned.ready known)
    rw [own, Except.ok.injEq, Option.some.injEq] at done'
    subst done'
    have size := (fitting i (List.mem_of_getElem? known)).2
    exact ⟨snapshots, s, ran.trans done, length, place, ran'.trans own, task, model.trans size⟩
  obtain ⟨i, rest, whole⟩ := List.exists_cons_of_ne_nil given
  obtain ⟨snapshots, -, ran, length, -⟩ := each 0 i (by simp [whole])
  refine ⟨snapshots, ran, length, fun k i known => ?_⟩
  obtain ⟨snapshots', s, ran', -, place, own, task, model⟩ := each k i known
  rw [ran, Except.ok.injEq, Option.some.injEq] at ran'
  subst ran'
  exact ⟨s, place, own, task, model, (i.counting.run_counted own).rows⟩

end Trials

end Passwise
