import Passwise.Proofs.Pass
import Passwise.Proofs.Sizes

set_option autoImplicit false

namespace Passwise

variable {α : Type} [Scalar α]

theorem Mat.addTo_of_square {d : Nat} {total m : Mat α} (left : total.Square d)
    (right : m.Square d) :
    Mat.addTo total m = .ok ((total.zip m).map fun pair => Vec.add pair.1 pair.2) := by
  unfold addTo
  rw [if_pos (left.1.trans right.1.symm)]
  refine mapM_ok fun pair member => Vec.addTo_of_length_eq ?_
  obtain ⟨inLeft, inRight⟩ := List.of_mem_zip member
  exact (left.2 pair.1 inLeft).trans (right.2 pair.2 inRight).symm

namespace RiskSet

variable {r r' : RiskSet α} {model : Vec α} {e : Example α} {d : Nat}

theorem run_enter_ok (fits : r.Fits d) {features : Vec α} (size : features.length = d)
    (event : Bool) (score weight : α) :
    ∃ r', (enter features event score weight).run r = (.ok (), r') := by
  have first : ∃ v, Vec.addTo r.group.first (Vec.scale weight features) = .ok v :=
    ⟨_, Vec.addTo_of_length_eq (by simp [fits.group.first, size])⟩
  have square : (Mat.scale weight (Mat.outer features features)).Square d :=
    Mat.square_scale (Mat.square_outer size size)
  have second : ∃ m, Mat.addTo r.group.second (Mat.scale weight (Mat.outer features features)) =
      .ok m := ⟨_, Mat.addTo_of_square fits.group.second square⟩
  have third : ∃ v, Vec.addTo r.deathFeatures features = .ok v :=
    ⟨_, Vec.addTo_of_length_eq (fits.deathFeatures.trans size.symm)⟩
  obtain ⟨v, first⟩ := first
  obtain ⟨m, second⟩ := second
  obtain ⟨u, third⟩ := third
  unfold enter
  rw [Update.run_bind_ok (Update.run_modify _ _), Update.run_bind_ok (Update.run_get _)]
  dsimp only
  rw [first, Update.run_bind_ok (Update.run_ofExcept _ _),
    Update.run_bind_ok (Update.run_modify _ _), Update.run_bind_ok (Update.run_get _)]
  dsimp only
  rw [second, Update.run_bind_ok (Update.run_ofExcept _ _),
    Update.run_bind_ok (Update.run_modify _ _)]
  cases event with
  | false => exact ⟨_, rfl⟩
  | true =>
    rw [if_pos rfl, Update.run_bind_ok (Update.run_modify _ _),
      Update.run_bind_ok (Update.run_get _)]
    dsimp only
    rw [third, Update.run_bind_ok (Update.run_ofExcept _ _)]
    exact ⟨_, rfl⟩

-- What can still fail after the times are compared is the risk score.
theorem run_add_ok (fits : r.Fits model.length) {time : α} {event : Bool}
    {closed : Option (Contribution α)} (label : e.label = .survival time event)
    (advanced : (advance time).run r = (.ok closed, r'))
    (size : e.dimension = model.length)
    (finite : Scalar.isFinite (Scalar.exp (Vec.dot model e.features)) = true) :
    ∃ r'', (add model e).run r = (.ok closed, r'') := by
  have after := (advance_fits time fits advanced).2
  obtain ⟨r'', entered⟩ := run_enter_ok after size event (Vec.dot model e.features)
    (Scalar.exp (Vec.dot model e.features))
  refine ⟨r'', ?_⟩
  unfold add
  rw [label]
  dsimp only
  rw [Update.run_bind_ok advanced, Vec.dot?_of_length_eq size.symm,
    Update.run_bind_ok (Update.run_ofExcept _ _), finite]
  simp only [Bool.not_true, Bool.false_eq_true, if_false]
  rw [Update.run_bind_ok entered]
  rfl

end RiskSet

namespace Totals

variable {model : Vec α} {e : Example α} {totals : Totals α} {r : RiskSet α}

theorem run_addToRisk_error {cause : Error}
    (failed : (RiskSet.add model e).run (totals.risk.getD (.empty model.length)) =
      (.error cause, r)) :
    (addToRisk model e).run totals = (.error cause, { totals with risk := some r }) := by
  refine Update.run_bind_error ?_ _
  rw [Update.run_onPart, failed]

theorem run_addToRisk_joins
    (joined : (RiskSet.add model e).run (totals.risk.getD (.empty model.length)) =
      (.ok none, r)) :
    (addToRisk model e).run totals = (.ok (), { totals with risk := some r }) := by
  have first : (Update.onPart (fun totals => totals.risk.getD (.empty model.length))
      (fun risk totals => { totals with risk := some risk }) (RiskSet.add model e)).run totals =
      (.ok none, { totals with risk := some r }) := by
    rw [Update.run_onPart, joined]
  unfold addToRisk
  rw [Update.run_bind_ok first]
  rfl

theorem run_addToRisk_closes {c : Contribution α}
    (closed : (RiskSet.add model e).run (totals.risk.getD (.empty model.length)) =
      (.ok (some c), r)) :
    (addToRisk model e).run totals = (addContribution c).run { totals with risk := some r } := by
  have first : (Update.onPart (fun totals => totals.risk.getD (.empty model.length))
      (fun risk totals => { totals with risk := some risk }) (RiskSet.add model e)).run totals =
      (.ok (some c), { totals with risk := some r }) := by
    rw [Update.run_onPart, closed]
  unfold addToRisk
  rw [Update.run_bind_ok first]

theorem addGradient_keeps_risk (v : Vec α) : Update.Keeps Totals.risk (addGradient v) := by
  refine .bind .get fun totals => ?_
  cases totals.gradient with
  | none => exact .throw _
  | some total => exact .bind (.ofExcept _) fun _ => .modify fun _ => rfl

theorem addHessian_keeps_risk (m : Mat α) : Update.Keeps Totals.risk (addHessian m) := by
  refine .bind .get fun totals => ?_
  cases totals.hessian with
  | none => exact .throw _
  | some total => exact .bind (.ofExcept _) fun _ => .modify fun _ => rfl

theorem addContribution_keeps_risk (c : Contribution α) :
    Update.Keeps Totals.risk (addContribution c) :=
  .bind (addGradient_keeps_risk _) fun _ => .bind (addHessian_keeps_risk _) fun _ =>
    .modify fun _ => rfl

end Totals

def PassState.risk (state : PassState α) : RiskSet α :=
  state.totals.risk.getD (.empty state.model.length)

namespace Newton

variable [DenseSolver α] {n : Newton α} {e : Example α} {state : PassState α}

theorem run_take_mismatch (other : e.dimension ≠ n.origin.task.dimension)
    (state : Option (PassState α)) : (n.machine.take e).run state =
      (.error (.dimensionMismatch n.origin.task.dimension e.dimension), state) :=
  Machine.run_take_refused (if_neg other) state

theorem run_take (size : e.dimension = n.origin.task.dimension) (state : PassState α) :
    (n.machine.take e).run (some state) =
      (((n.strategy.absorb e).run state).1, some ((n.strategy.absorb e).run state).2) :=
  Machine.run_take_some (if_pos size) state

theorem risk_of_start {start : PassState α} (started : n.strategy.start = .ok start) :
    start.totals.risk = none := by
  obtain ⟨_, _, started⟩ := bind_eq_ok.mp started
  cases started
  rfl

omit [DenseSolver α] in
theorem run_step {totals : Totals α} {result : Except Error Unit}
    (cox : n.objective = .cox)
    (added : (Totals.addToRisk state.model e).run state.totals = (result, totals)) :
    (n.step e).run state = (result, { state with totals := totals }) := by
  unfold step
  rw [Update.run_bind_ok (Update.run_get _), Update.run_onPart, cox]
  change ((((Totals.addToRisk state.model e).run state.totals).1,
    { state with totals := ((Totals.addToRisk state.model e).run state.totals).2 }) :
      Except Error Unit × PassState α) = _
  rw [added]

theorem run_take_error {cause : Error} {totals : Totals α} (cox : n.objective = .cox)
    (size : e.dimension = n.origin.task.dimension)
    (failed : (Totals.addToRisk state.model e).run state.totals = (.error cause, totals)) :
    (n.machine.take e).run (some state) =
      (.error cause, some { state with totals := totals }) := by
  have absorbed : (n.strategy.absorb e).run state =
      (.error cause, { state with totals := totals }) :=
    Update.run_bind_error (run_step cox failed) _
  rw [run_take size, absorbed]

theorem run_take_ok {totals : Totals α} (cox : n.objective = .cox)
    (size : e.dimension = n.origin.task.dimension)
    (added : (Totals.addToRisk state.model e).run state.totals = (.ok (), totals)) :
    (n.machine.take e).run (some state) =
      (.ok (), some { state with totals := totals, rows := state.rows + 1 }) := by
  have absorbed : (n.strategy.absorb e).run state =
      (.ok (), { state with totals := totals, rows := state.rows + 1 }) := by
    change (n.step e >>= _).run state = _
    rw [Update.run_bind_ok (run_step cox added)]
    rfl
  rw [run_take size, absorbed]

theorem exists_added (cox : n.objective = .cox) {next : Option (PassState α)}
    (taken : (n.machine.take e).exec (some state) = .ok next) :
    ∃ closed r totals, (RiskSet.add state.model e).run state.risk = (.ok closed, r) ∧
      totals.risk = some r ∧
      next = some { state with totals := totals, rows := state.rows + 1 } := by
  have size : e.dimension = n.origin.task.dimension := by
    by_contra other
    rw [Update.exec, run_take_mismatch other] at taken
    cases taken
  rcases added : (Totals.addToRisk state.model e).run state.totals with ⟨_ | _, totals⟩
  · rw [Update.exec, run_take_error cox size added] at taken
    cases taken
  · rw [Update.exec, run_take_ok cox size added] at taken
    cases taken
    rcases inside : (RiskSet.add state.model e).run state.risk with ⟨_ | _ | c, r⟩
    · rw [Totals.run_addToRisk_error inside] at added
      cases added
    · rw [Totals.run_addToRisk_joins inside] at added
      cases added
      exact ⟨none, r, _, rfl, rfl, rfl⟩
    · rw [Totals.run_addToRisk_closes inside] at added
      exact ⟨some c, r, totals, rfl, (Totals.addContribution_keeps_risk c).of_run added, rfl⟩

theorem fits_of_start {start : PassState α} (started : n.strategy.start = .ok start) :
    start.risk.Fits start.model.length := by
  rw [PassState.risk, risk_of_start started]
  exact RiskSet.fits_empty

theorem fits_of_take (cox : n.objective = .cox) {state next : Option (PassState α)}
    (fits : ∀ s ∈ state, s.risk.Fits s.model.length)
    (taken : (n.machine.take e).exec state = .ok next) :
    ∀ s ∈ next, s.risk.Fits s.model.length := by
  have step {state : PassState α} (fits : state.risk.Fits state.model.length)
      (taken : (n.machine.take e).exec (some state) = .ok next) :
      ∀ s ∈ next, s.risk.Fits s.model.length := by
    obtain ⟨closed, r, totals, added, known, rfl⟩ := exists_added cox taken
    rintro _ ⟨⟩
    have after := (RiskSet.add_fits state.model e fits added).2
    simpa [PassState.risk, known] using after
  cases state with
  | some state => exact step (fits state rfl) taken
  | none =>
    obtain ⟨start, started, taken⟩ := Machine.take_none_eq_ok taken
    exact step (fits_of_start started) taken

theorem fits_of_fold (cox : n.objective = .cox) {xs : List (Example α)}
    {state last : Option (PassState α)} (fits : ∀ s ∈ state, s.risk.Fits s.model.length)
    (folded : n.machine.fold xs state = .ok last) : ∀ s ∈ last, s.risk.Fits s.model.length := by
  induction xs generalizing state with
  | nil =>
    cases folded
    exact fits
  | cons e xs ih =>
    rw [Machine.fold_cons] at folded
    obtain ⟨next, taken, folded⟩ := bind_eq_ok.mp folded
    exact ih (fits_of_take cox fits taken) folded

end Newton

end Passwise
