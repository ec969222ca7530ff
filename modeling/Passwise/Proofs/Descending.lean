import Passwise.Proofs.Pooling
import Passwise.Proofs.Raising

set_option autoImplicit false

namespace Passwise

def Error.Timeless (cause : Error) : Prop :=
  cause ≠ .labelWithoutTime ∧ cause ≠ .timesNotDescending

theorem bind_eq_error {β γ : Type} {x : Except Error β} {f : β → Except Error γ} {cause : Error} :
    x >>= f = .error cause ↔ x = .error cause ∨ ∃ b, x = .ok b ∧ f b = .error cause := by
  cases x <;> simp

namespace Update

variable {σ β γ : Type}

def StopsFor (P : Error → Prop) (x : Update σ β) : Prop :=
  ∀ s cause t, x.run s = (.error cause, t) → P cause

namespace StopsFor

variable {P : Error → Prop}

theorem ofExcept {result : Except Error β} (causes : ∀ cause, result = .error cause → P cause) :
    StopsFor P (Update.ofExcept result : Update σ β) :=
  fun _ cause _ failed => causes cause (congrArg Prod.fst failed)

theorem pure (b : β) : StopsFor P (Pure.pure b : Update σ β) := fun _ _ _ failed => nomatch failed

theorem throw {cause : Error} (allowed : P cause) : StopsFor P (throw cause : Update σ β) := by
  intro s other t failed
  cases failed
  exact allowed

theorem get : StopsFor P (get : Update σ σ) := fun _ _ _ failed => nomatch failed

theorem modify (f : σ → σ) : StopsFor P (modify f : Update σ PUnit) :=
  fun _ _ _ failed => nomatch failed

theorem bind {x : Update σ β} {f : β → Update σ γ} (first : StopsFor P x)
    (rest : ∀ b, StopsFor P (f b)) : StopsFor P (x >>= f) := by
  intro s cause t failed
  rw [run_bind] at failed
  rcases done : x.run s with ⟨own | b, u⟩
  · rw [done] at failed
    cases failed
    exact first s cause t done
  · rw [done] at failed
    exact rest b u cause t failed

end StopsFor

end Update

section Stopping

variable {α : Type} [Scalar α] {cause : Error}

theorem Vec.addTo_stops {total v : Vec α} (failed : Vec.addTo total v = .error cause) :
    cause.Timeless := by
  unfold Vec.addTo at failed
  split_ifs at failed
  split at failed
  · cases failed
  · cases failed
    simp [Error.Timeless]

theorem Mat.addTo_stops {total m : Mat α} (failed : Mat.addTo total m = .error cause) :
    cause.Timeless := by
  unfold Mat.addTo at failed
  split_ifs at failed
  · obtain ⟨_, -, failed⟩ := exists_of_mapM_error failed
    exact Vec.addTo_stops failed
  · split at failed
    · obtain ⟨_, -, failed⟩ := exists_of_mapM_error failed
      exact Vec.addTo_stops failed
    · cases failed
      simp [Error.Timeless]

theorem Vec.dot?_stops {u v : Vec α} (failed : Vec.dot? u v = .error cause) : cause.Timeless := by
  unfold Vec.dot? at failed
  split_ifs at failed
  cases failed
  simp [Error.Timeless]

theorem Origin.start_stops {origin : Origin α} (failed : origin.start = .error cause) :
    cause.Timeless := by
  unfold Origin.start at failed
  dsimp only at failed
  split at failed
  · cases failed
  · split_ifs at failed
    cases failed
    simp [Error.Timeless]

namespace RiskSet

variable {r t : RiskSet α} {model : Vec α} {e : Example α}

theorem contribution_stops (failed : r.contribution = .error cause) : cause.Timeless := by
  unfold contribution at failed
  dsimp only at failed
  split_ifs at failed
  cases failed
  simp [Error.Timeless]

theorem absorbGroup_stops : Update.StopsFor Error.Timeless (absorbGroup (α := α)) :=
  .bind (.modify _) fun _ => .bind .get fun _ => .bind (.ofExcept fun _ => contribution_stops)
    fun _ => .bind (.modify _) fun _ => .pure _

theorem advance_stops {time : α} (inOrder : ∀ first ∈ r.groupTime, ¬ first + tolerance < time)
    (failed : (advance time).run r = (.error cause, t)) : cause.Timeless := by
  unfold advance at failed
  rw [Update.run_bind_ok (Update.run_get _)] at failed
  cases known : r.groupTime with
  | none =>
    rw [known] at failed
    cases failed
  | some first =>
    rw [known] at failed
    dsimp only at failed
    rw [if_neg (inOrder first known)] at failed
    have closes : Update.StopsFor Error.Timeless (do
        let closed ← absorbGroup
        modify fun r => { r with groupTime := some time }
        return some closed : Update (RiskSet α) (Option (Contribution α))) :=
      .bind absorbGroup_stops fun _ => .bind (.modify _) fun _ => .pure _
    split_ifs at failed
    · exact closes r cause t failed
    · cases failed

theorem enter_stops (features : Vec α) (event : Bool) (score weight : α) :
    Update.StopsFor Error.Timeless (enter features event score weight) := by
  refine .bind (.modify _) fun _ => .bind .get fun _ =>
    .bind (.ofExcept fun _ => Vec.addTo_stops) fun _ => .bind (.modify _) fun _ =>
    .bind .get fun _ => .bind (.ofExcept fun _ => Mat.addTo_stops) fun _ =>
    .bind (.modify _) fun _ => ?_
  split_ifs
  · exact .bind (.modify _) fun _ => .bind .get fun _ =>
      .bind (.ofExcept fun _ => Vec.addTo_stops) fun _ => .modify _
  · exact .pure _

theorem add_stops (timed : e.label.isSurvival = true)
    (inOrder : ∀ first ∈ r.groupTime, ¬ first + tolerance < e.time)
    (failed : (add model e).run r = (.error cause, t)) : cause.Timeless := by
  unfold add at failed
  rcases label : e.label with value | ⟨time, event⟩
  · rw [label] at timed
    cases timed
  have same : e.time = time := congrArg Label.number label
  rw [label] at failed
  dsimp only at failed
  rw [same] at inOrder
  rcases advanced : (advance time).run r with ⟨own | closed, u⟩
  · rw [Update.run_bind_error advanced] at failed
    cases failed
    exact advance_stops inOrder advanced
  · rw [Update.run_bind_ok advanced] at failed
    have scored (model v : Vec α) : Update.StopsFor Error.Timeless
        (Update.ofExcept (Vec.dot? model v) : Update (RiskSet α) α) :=
      .ofExcept fun _ => Vec.dot?_stops
    refine (scored _ _).bind (fun score => ?_) u cause t failed
    split_ifs
    · exact .throw (by simp [Error.Timeless])
    · exact .bind (enter_stops _ _ _ _) fun _ => .pure _

end RiskSet

namespace Totals

variable {totals t : Totals α} {model : Vec α} {e : Example α}

theorem addGradient_stops (v : Vec α) : Update.StopsFor Error.Timeless (addGradient v) := by
  refine .bind .get fun totals => ?_
  cases totals.gradient with
  | none => exact .throw (by simp [Error.Timeless])
  | some total => exact .bind (.ofExcept fun _ => Vec.addTo_stops) fun _ => .modify _

theorem addHessian_stops (m : Mat α) : Update.StopsFor Error.Timeless (addHessian m) := by
  refine .bind .get fun totals => ?_
  cases totals.hessian with
  | none => exact .throw (by simp [Error.Timeless])
  | some total => exact .bind (.ofExcept fun _ => Mat.addTo_stops) fun _ => .modify _

theorem addContribution_stops (c : Contribution α) :
    Update.StopsFor Error.Timeless (addContribution c) :=
  .bind (addGradient_stops _) fun _ => .bind (addHessian_stops _) fun _ => .modify _

theorem addToRisk_stops (timed : e.label.isSurvival = true)
    (inOrder : ∀ first ∈ (totals.risk.getD (.empty model.length)).groupTime,
      ¬ first + RiskSet.tolerance < e.time)
    (failed : (addToRisk model e).run totals = (.error cause, t)) : cause.Timeless := by
  rcases added : (RiskSet.add model e).run (totals.risk.getD (.empty model.length)) with
    ⟨own | _ | c, r⟩
  · rw [run_addToRisk_error added] at failed
    cases failed
    exact RiskSet.add_stops timed inOrder added
  · rw [run_addToRisk_joins added] at failed
    cases failed
  · rw [run_addToRisk_closes added] at failed
    exact addContribution_stops c _ cause t failed

end Totals

namespace Newton

variable [DenseSolver α] {n : Newton α} {e : Example α}

theorem start_stops (failed : n.strategy.start = .error cause) : cause.Timeless := by
  rcases bind_eq_error.mp failed with failed | ⟨_, -, failed⟩
  · exact Origin.start_stops failed
  · cases failed

theorem take_some_stops (cox : n.objective = .cox) (timed : e.label.isSurvival = true)
    {state : PassState α}
    (inOrder : ∀ first ∈ state.risk.groupTime, ¬ first + RiskSet.tolerance < e.time)
    (failed : (n.machine.take e).exec (some state) = .error cause) : cause.Timeless := by
  by_cases size : e.dimension = n.origin.task.dimension
  · rcases added : (Totals.addToRisk state.model e).run state.totals with ⟨own | _, totals⟩
    · rw [Update.exec, run_take_error cox size added] at failed
      cases failed
      exact Totals.addToRisk_stops timed inOrder added
    · rw [Update.exec, run_take_ok cox size added] at failed
      cases failed
  · rw [Update.exec, run_take_mismatch size] at failed
    cases failed
    simp [Error.Timeless]

theorem take_none_stops (cox : n.objective = .cox) (timed : e.label.isSurvival = true)
    (failed : (n.machine.take e).exec none = .error cause) : cause.Timeless := by
  cases started : n.strategy.start with
  | error own =>
    by_cases size : e.dimension = n.origin.task.dimension
    · have accepted : n.machine.accepts e = .ok () := if_pos size
      have stopped : n.machine.start = .error own := started
      rw [Machine.take_none, accepted, ok_bind, stopped] at failed
      cases failed
      exact start_stops started
    · rw [Update.exec, run_take_mismatch size] at failed
      cases failed
      simp [Error.Timeless]
  | ok start =>
    rw [← Machine.take_start started] at failed
    refine take_some_stops cox timed (fun first here => ?_) failed
    rw [PassState.risk, risk_of_start started] at here
    cases here

theorem fold_stops (cox : n.objective = .cox) {stream : List (Example α)}
    (timed : ∀ e ∈ stream, e.label.isSurvival = true)
    (inOrder : stream.Pairwise fun a b => ¬ a.time + RiskSet.tolerance < b.time)
    (failed : n.machine.fold stream none = .error cause) : cause.Timeless := by
  induction stream using List.reverseRecOn with
  | nil => cases failed
  | append_singleton stream e ih =>
    obtain ⟨timed, own⟩ := List.forall_mem_append.mp timed
    obtain ⟨earlier, -, across⟩ := List.pairwise_append.mp inOrder
    have own := own e (List.mem_singleton.mpr rfl)
    rw [Machine.fold_append] at failed
    rcases bind_eq_error.mp failed with failed | ⟨last, folded, failed⟩
    · exact ih timed earlier failed
    rw [Machine.fold_cons] at failed
    rcases bind_eq_error.mp failed with failed | ⟨_, -, failed⟩
    · cases last with
      | none => exact take_none_stops cox own failed
      | some state =>
        refine take_some_stops cox own (fun first here => ?_) failed
        obtain ⟨model, r, g, forms, -, known⟩ := forms_of_fold cox folded
        rw [(known state rfl).2, forms.groupTime_eq] at here
        obtain ⟨x, head, rfl⟩ := Option.map_eq_some_iff.mp here
        have member : x ∈ stream := by
          rw [← forms.flatten]
          exact List.mem_flatten_of_mem (by simp [Groups.all]) (List.mem_of_head? head)
        exact across x member e (List.mem_singleton.mpr rfl)
    · cases failed

end Newton

end Stopping

namespace Double

theorem notBefore_of_beq {x y : Float} (same : (x == y) = true) :
    Source.notBefore x y = true ∧ Source.notBefore y x = true := by
  obtain ⟨below, above⟩ := beq_iff_le.mp same
  obtain ⟨first, second⟩ := numbers_of_le below
  exact ⟨notBefore_iff.mpr (.inr ⟨second, above⟩), notBefore_iff.mpr (.inr ⟨first, below⟩)⟩

end Double

namespace Source

theorem byDescendingTime_stable (source : Source Float) (t : Float) :
    source.byDescendingTime.filter (·.time == t) = source.examples.filter (·.time == t) := by
  let equal := source.examples.filter (·.time == t)
  have trans (a b c : Example Float) : notBefore a.label.number b.label.number = true →
      notBefore b.label.number c.label.number = true →
      notBefore a.label.number c.label.number = true :=
    Double.notBefore_trans a.label.number b.label.number c.label.number
  have total (a b : Example Float) : (notBefore a.label.number b.label.number ||
      notBefore b.label.number a.label.number) = true :=
    Double.notBefore_total a.label.number b.label.number
  have ordered : equal.Pairwise fun a b => notBefore a.label.number b.label.number = true := by
    refine List.pairwise_of_forall_mem_list fun a left b right => ?_
    have first := (Double.notBefore_of_beq (List.mem_filter.mp left).2).1
    have second := (Double.notBefore_of_beq (List.mem_filter.mp right).2).2
    exact Double.notBefore_trans _ t _ first second
  have kept : equal.Sublist source.byDescendingTime :=
    List.sublist_mergeSort trans total ordered List.filter_sublist
  have inside : equal.Sublist (source.byDescendingTime.filter (·.time == t)) := by
    have again := kept.filter (·.time == t)
    simpa only [equal, List.filter_filter, Bool.and_self] using again
  have perm : source.byDescendingTime.Perm source.examples := List.mergeSort_perm _ _
  exact (inside.eq_of_length (perm.filter _).length_eq.symm).symm

theorem byDescendingTime_descends {source : Source Float}
    (numbers : ∀ e ∈ source.examples, Scalar.isNaN e.time = false) :
    source.byDescendingTime.Pairwise fun a b => b.time ≤ a.time := by
  refine source.byDescendingTime_sorted.imp_of_mem fun {a b} left _ before => ?_
  rw [Double.notBefore_iff, numbers a (mem_byDescendingTime.mp left)] at before
  exact (before.resolve_left Bool.false_ne_true).2

end Source

namespace Newton

theorem survival_source_in_order [DenseSolver Float] {n : Newton Float}
    (cox : n.objective = .cox) {source : Source Float} (timed : source.survival = true)
    (numbers : ∀ e ∈ source.examples, Scalar.isNaN e.time = false) :
    source.byDescendingTime.Perm source.examples ∧
    source.byDescendingTime.Pairwise (fun a b => b.time ≤ a.time) ∧
    (∀ t, source.byDescendingTime.filter (·.time == t) =
      source.examples.filter (·.time == t)) ∧
    n.machine.fold source.byDescendingTime none ≠ .error .labelWithoutTime ∧
    n.machine.fold source.byDescendingTime none ≠ .error .timesNotDescending := by
  have descends := Source.byDescendingTime_descends numbers
  have inOrder : source.byDescendingTime.Pairwise
      fun a b => ¬ a.time + RiskSet.tolerance < b.time := by
    refine descends.imp_of_mem fun {a b} left right below => ?_
    exact Double.not_add_tolerance_lt (numbers a (Source.mem_byDescendingTime.mp left))
      (numbers b (Source.mem_byDescendingTime.mp right)) below
  have labels : ∀ e ∈ source.byDescendingTime, e.label.isSurvival = true := fun e member =>
    (source.uniform e (Source.mem_byDescendingTime.mp member)).2.trans timed
  refine ⟨List.mergeSort_perm _ _, descends, source.byDescendingTime_stable, ?_, ?_⟩
  · exact fun failed => (fold_stops cox labels inOrder failed).1 rfl
  · exact fun failed => (fold_stops cox labels inOrder failed).2 rfl

theorem survival_source_in_order_scattered :
    let task : Task Float := { Task.halving with objective := .cox }
    let n : Newton Float := ⟨⟨task, none⟩, 1000, rfl, rfl⟩
    let rows : List (Example Float) := [⟨[1], .survival 0 true⟩, ⟨[2], .survival 3 false⟩,
      ⟨[3], .survival (1 / 0) true⟩, ⟨[4], .survival (-0) false⟩,
      ⟨[5], .survival 3.0000001 true⟩, ⟨[6], .survival 3 true⟩]
    let source : Source Float :=
      ⟨1, true, rows, by simp [rows, Example.dimension, Label.isSurvival]⟩
    source.byDescendingTime.filter (·.time == 3) =
        [⟨[2], .survival 3 false⟩, ⟨[6], .survival 3 true⟩] ∧
      source.byDescendingTime.filter (·.time == 0) =
        [⟨[1], .survival 0 true⟩, ⟨[4], .survival (-0) false⟩] ∧
      n.machine.fold source.byDescendingTime none ≠ .error .timesNotDescending := by
  intro task n rows source
  have numbers : ∀ e ∈ rows, Scalar.isNaN e.time = false := by
    decide +kernel
  obtain ⟨-, -, stable, -, inOrder⟩ := @survival_source_in_order _ n rfl source rfl numbers
  exact ⟨(stable 3).trans rfl, (stable 0).trans rfl, inOrder⟩

end Newton

end Passwise
