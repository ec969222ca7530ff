import Passwise.Proofs.Objective
import Passwise.Proofs.Pass
import Passwise.Conjugate
import Passwise.Newton

set_option autoImplicit false

namespace Passwise

variable {α : Type} [Exact α] {d : Nat}

theorem Task.regularization_nonneg (task : Task α) : 0 ≤ task.regularization := by
  have admissible := task.regularization_admissible
  rw [Scalar.isAdmissible, Bool.and_eq_true] at admissible
  simpa using admissible.2

section Finite

variable [Exact.Finite α] (what : String)

@[simp] theorem requireFinite_ok (x : α) : requireFinite what x = .ok () := by
  simp [requireFinite]

@[simp] theorem requireFiniteVec_ok (v : Vec α) : requireFiniteVec what v = .ok () := by
  simp [requireFiniteVec, Vec.isFinite]

@[simp] theorem requireFiniteMat_ok (m : Mat α) : requireFiniteMat what m = .ok () := by
  simp [requireFiniteMat, Mat.isFinite, Vec.isFinite]

end Finite

-- Loss, gradient, Hessian and rows. A pass that sums no Hessian ignores the third part.
abbrev Share (α : Type) (d : Nat) := α × (Fin d → α) × Matrix (Fin d) (Fin d) α × Int

namespace Share

def totals (curved : Bool) (a : Share α d) : Totals α where
  loss := a.1
  gradient := some (Vec.of a.2.1)
  hessian := if curved then some (Mat.of a.2.2.1) else none
  risk := none

def state (start : PassState α) (curved : Bool) (a : Share α d) : PassState α :=
  { start with totals := a.totals curved, rows := a.2.2.2 }

end Share

def Objective.share (o : Objective) (w : Fin d → α) (e : Example α) : Share α d :=
  let x := Vec.entries d e.features
  (o.lossAt w x e.label.number, o.gradientAt w x e.label.number, o.hessianAt w x, 1)

def Example.Alike (n : Nat) (survival : Bool) (e : Example α) : Prop :=
  e.dimension = n ∧ e.label.isSurvival = survival

namespace Totals

theorem addGradient_of {t : Totals α} {g : Fin d → α} (known : t.gradient = some (Vec.of g))
    (h : Fin d → α) :
    (addGradient (Vec.of h)).exec t = .ok { t with gradient := some (Vec.of (g + h)) } := by
  simp [addGradient, known]

theorem addHessian_of {t : Totals α} {m : Matrix (Fin d) (Fin d) α}
    (known : t.hessian = some (Mat.of m)) (n : Matrix (Fin d) (Fin d) α) :
    (addHessian (Mat.of n)).exec t = .ok { t with hessian := some (Mat.of (m + n)) } := by
  simp [addHessian, known]

theorem addExample_eq_addOwn {o : Objective} (separable : o.usesRiskSet = false) (model : Vec α)
    (e : Example α) : addExample o model e = addOwn o model e := by
  simp [addExample, separable]

theorem addOwn_share {o : Objective} (separable : o.usesRiskSet = false) {curved : Bool}
    (smooth : curved = true → o.hasCurvature = true) (w : Fin d → α) {e : Example α}
    (alike : e.Alike d false) (a : Share α d) :
    (addOwn o (Vec.of w) e).exec (a.totals curved) = .ok ((a + o.share w e).totals curved) := by
  obtain ⟨features, label⟩ := e
  obtain ⟨x, rfl⟩ := Vec.exists_of alike.1
  obtain ⟨y, rfl⟩ : ∃ y, label = .plain y := ⟨_, Label.eq_plain alike.2⟩
  have gradient := addGradient_of (t := a.totals curved) rfl (o.gradientAt w x y)
  unfold addOwn
  simp only [Objective.gradient_of separable, Objective.loss_of separable, Update.exec_bind_unit,
    Update.exec_ofExcept_bind, addLoss, ok_bind, gradient, Update.exec_modify, Update.exec_get_bind]
  cases curved with
  | false => simp [Share.totals, Objective.share, Label.number]
  | true =>
    have hessian := Objective.hessian_of separable (smooth rfl) w x y
    simp only [Share.totals, ↓reduceIte, Option.isSome_some, hessian, Update.exec_ofExcept_bind,
      ok_bind, Objective.share, Vec.entries_of, Label.number, Prod.fst_add, Prod.snd_add]
    exact addHessian_of rfl _

end Totals

theorem Origin.start_fresh {origin : Origin α} {state : PassState α}
    (started : origin.start = .ok state) : state.task = origin.task ∧ state.rows = 0 := by
  unfold Origin.start at started
  split at started
  · cases started
    exact ⟨rfl, rfl⟩
  · dsimp only at started
    split at started
    · cases started
      exact ⟨rfl, rfl⟩
    · cases started

omit [Exact α] in
theorem Origin.start_previous [Scalar α] {origin : Origin α} {s : Snapshot α}
    (previous : origin.previous = some s)
    (same : origin.task.dimension = s.task.dimension ∧ origin.task.objective = s.task.objective) :
    origin.start = .ok ⟨origin.task, s.model, s.memory, .zero, 0⟩ := by
  simp [start, previous, same]

namespace Strategy

theorem start_fresh {s : Strategy α} {start : PassState α} (started : s.start = .ok start) :
    start.task = s.origin.task ∧ start.rows = 0 ∧ start.totals = s.totals := by
  obtain ⟨first, origin, rest⟩ := bind_eq_ok.mp started
  cases rest
  obtain ⟨task, rows⟩ := Origin.start_fresh origin
  exact ⟨task, rows, rfl⟩

omit [Exact α] in
theorem start_resumed [Scalar α] {s : Strategy α} {from_ : Snapshot α}
    (previous : s.origin.previous = some from_)
    (same : s.origin.task.dimension = from_.task.dimension ∧
      s.origin.task.objective = from_.task.objective) :
    s.start = .ok ⟨s.origin.task, from_.model, from_.memory, s.totals, 0⟩ := by
  rw [start, Origin.start_previous previous same]
  rfl

theorem result_eq_some {s : Strategy α} {state : PassState α} {found : Snapshot α}
    (done : s.result state = .ok (some found)) :
    state.rows ≠ 0 ∧ s.finish state = .ok found := by
  by_cases empty : state.rows = 0
  · rw [result, if_pos empty] at done
    cases done
  · rw [result, if_neg empty] at done
    obtain ⟨_, finished, done⟩ := bind_eq_ok.mp done
    cases done
    exact ⟨empty, finished⟩

omit [Exact α] in
theorem exec_absorb [Scalar α] (s : Strategy α) (e : Example α) (state : PassState α) :
    (s.absorb e).exec state =
      (fun after => { after with rows := after.rows + 1 }) <$> (s.step e).exec state := by
  rw [absorb, Update.exec_bind_unit]
  rfl

variable {s : Strategy α} {n : Nat} {survival : Bool}

omit [Exact α] in
theorem dimension_of_accepts [Scalar α] {s : Strategy α} {e : Example α}
    (accepted : s.accepts e = .ok ()) : e.dimension = s.origin.task.dimension := by
  by_contra other
  rw [accepts, if_neg other] at accepted
  cases accepted

theorem refuses_of_dimension (survival : Bool) (other : n ≠ s.origin.task.dimension) :
    ∃ cause, s.machine.Refusing (Example.Alike n survival) cause := by
  refine ⟨.dimensionMismatch s.origin.task.dimension n, fun e alike => ?_⟩
  have refused : s.accepts e = .error (.dimensionMismatch s.origin.task.dimension n) := by
    rw [accepts, if_neg (alike.1 ▸ other), alike.1]
  rw [Machine.take_none]
  change (s.accepts e >>= _) = _
  rw [refused]
  rfl

theorem take_none (size : n = s.origin.task.dimension) {e : Example α}
    (alike : e.Alike n survival) :
    (s.machine.take e).exec none = (do
      let state ← s.start
      some <$> (s.absorb e).exec state) := by
  rw [Machine.take_none]
  change (s.accepts e >>= _) = _
  rw [accepts, if_pos (alike.1.trans size)]
  rfl

theorem take_some (size : n = s.origin.task.dimension) {e : Example α}
    (alike : e.Alike n survival) (state : PassState α) :
    (s.machine.take e).exec (some state) = some <$> (s.absorb e).exec state := by
  rw [Machine.take_some]
  change (s.accepts e >>= _) = _
  rw [accepts, if_pos (alike.1.trans size)]
  rfl

structure Additive (s : Strategy α) (o : Objective) (curved : Bool) : Prop where
  separable : o.usesRiskSet = false
  smooth : curved = true → o.hasCurvature = true
  step : ∀ e state, (s.step e).exec state =
    (fun totals => { state with totals := totals }) <$>
      (Totals.addExample o state.model e).exec state.totals
  totals : s.totals = (0 : Share α s.origin.task.dimension).totals curved
  joined : ∀ (state : PassState α) (a b : Share α s.origin.task.dimension),
    s.joined (a.state state curved) (b.state state curved) =
      .ok (state.model, (a + b).totals curved)

namespace Additive

variable {o : Objective} {curved : Bool}

theorem exec_step (additive : s.Additive o curved) (e : Example α) (state : PassState α) :
    (s.absorb e).exec state =
      (fun totals => { state with totals := totals, rows := state.rows + 1 }) <$>
        (Totals.addOwn o state.model e).exec state.totals := by
  rw [exec_absorb, additive.step, Totals.addExample_eq_addOwn additive.separable]
  cases (Totals.addOwn o state.model e).exec state.totals <;> rfl

theorem start_eq (additive : s.Additive o curved) {start : PassState α}
    (started : s.start = .ok start) :
    start = (0 : Share α s.origin.task.dimension).state start curved := by
  obtain ⟨_, rows, made⟩ := start_fresh started
  rw [Share.state, ← additive.totals, ← made]
  simp [← rows]

theorem reached_getD (additive : s.Additive o curved) {start : PassState α}
    (started : s.start = .ok start)
    (share : Example α → Share α s.origin.task.dimension) (xs : List (Example α)) :
    (Machine.reached share (Share.state start curved) xs).getD start =
      Share.state start curved (xs.map share).sum := by
  by_cases empty : xs = []
  · rw [Machine.reached, if_pos empty, empty]
    exact additive.start_eq started
  · rw [Machine.reached, if_neg empty]
    rfl

theorem refuses_misfits (additive : s.Additive o curved) (size : n = s.origin.task.dimension)
    {start : PassState α} (started : s.start = .ok start)
    (misfit : survival = true ∨ start.model.length ≠ n) :
    ∃ cause, s.machine.Refusing (Example.Alike n survival) cause := by
  obtain ⟨cause, refuses⟩ := Objective.refuses_misfits additive.separable start.model misfit
  refine ⟨cause, fun e alike => ?_⟩
  have refused : (Totals.addOwn o start.model e).exec start.totals = .error cause := by
    rw [Totals.addOwn, Update.exec_ofExcept_bind, (refuses e alike.1 alike.2).1]
    rfl
  rw [take_none size alike, started, ok_bind, additive.exec_step, refused]
  rfl

theorem join_state (additive : s.Additive o curved) (start : PassState α)
    (a b : Share α s.origin.task.dimension) :
    s.join (a.state start curved) (b.state start curved) = .ok ((a + b).state start curved) := by
  have sameTask : (a.state start curved).task.dimension = (b.state start curved).task.dimension :=
    rfl
  rw [join, if_pos sameTask, additive.joined]
  rfl

theorem summing (additive : s.Additive o curved) {start : PassState α}
    (started : s.start = .ok start) (fits : start.model.length = s.origin.task.dimension) :
    s.machine.Summing (Example.Alike s.origin.task.dimension false)
      (o.share (Vec.entries s.origin.task.dimension start.model)) (Share.state start curved) := by
  have model : start.model = Vec.of (Vec.entries s.origin.task.dimension start.model) :=
    (Vec.of_entries fits).symm
  have absorb (e : Example α) (alike : e.Alike s.origin.task.dimension false)
      (a : Share α s.origin.task.dimension) :
      (s.absorb e).exec (a.state start curved) =
        .ok ((a + o.share (Vec.entries s.origin.task.dimension start.model) e).state start
          curved) := by
    rw [additive.exec_step]
    have added := Totals.addOwn_share additive.separable additive.smooth
      (Vec.entries s.origin.task.dimension start.model) alike a
    rw [← model] at added
    change _ <$> (Totals.addOwn o start.model e).exec (a.totals curved) = _
    rw [added]
    rfl
  constructor
  case first =>
    intro e alike
    have first := absorb e alike 0
    rw [← additive.start_eq started, zero_add] at first
    rw [take_none rfl alike, started, ok_bind, first]
    rfl
  case next =>
    intro a e alike
    rw [take_some rfl alike, absorb e alike]
    rfl
  case join => exact additive.join_state start

theorem alike_of_take (additive : s.Additive o curved) {e : Example α} {state : PassState α}
    {next : Option (PassState α)} (taken : (s.machine.take e).exec (some state) = .ok next) :
    e.Alike s.origin.task.dimension false ∧ state.model.length = s.origin.task.dimension := by
  obtain ⟨accepted, reached, absorbed, -⟩ := Machine.take_some_eq_ok taken
  have size : e.dimension = s.origin.task.dimension := dimension_of_accepts accepted
  by_contra other
  have misfit : e.label.isSurvival = true ∨ state.model.length ≠ s.origin.task.dimension := by
    by_contra fits
    exact other ⟨⟨size, by simp_all⟩, by simp_all⟩
  obtain ⟨cause, refuses⟩ := Objective.refuses_misfits additive.separable state.model misfit
  have refused : (Totals.addOwn o state.model e).exec state.totals = .error cause := by
    rw [Totals.addOwn, Update.exec_ofExcept_bind, (refuses e size rfl).1]
    rfl
  change (s.absorb e).exec state = _ at absorbed
  rw [additive.exec_step, refused] at absorbed
  cases absorbed

theorem alike_of_fold (additive : s.Additive o curved) {xs : List (Example α)}
    {state last : Option (PassState α)} (folded : s.machine.fold xs state = .ok last) :
    ∀ e ∈ xs, e.Alike s.origin.task.dimension false := by
  induction xs generalizing state with
  | nil => simp
  | cons e xs ih =>
    rw [Machine.fold_cons] at folded
    obtain ⟨next, taken, later⟩ := bind_eq_ok.mp folded
    have first : e.Alike s.origin.task.dimension false := by
      cases state with
      | none =>
        obtain ⟨start, _, taken⟩ := Machine.take_none_eq_ok taken
        exact (additive.alike_of_take taken).1
      | some state => exact (additive.alike_of_take taken).1
    exact List.forall_mem_cons.mpr ⟨first, ih later⟩

theorem alike_of_run (additive : s.Additive o curved) {shape : Shape}
    {parts : List (List (Example α))} {found : Option (Snapshot α)}
    (done : s.machine.run shape parts = .ok found) :
    ∀ e ∈ parts.flatten, e.Alike s.origin.task.dimension false := by
  obtain ⟨states, folded, -⟩ := bind_eq_ok.mp done
  intro e member
  obtain ⟨part, inside, taken⟩ := List.mem_flatten.mp member
  obtain ⟨last, folded⟩ := ok_of_mem_mapM folded inside
  exact additive.alike_of_fold folded e taken

end Additive

theorem Additive.uniform {o : Objective} {curved : Bool} (additive : s.Additive o curved) :
    s.machine.Uniform (Example.Alike n survival) := by
  by_cases size : n = s.origin.task.dimension
  -- A start that fails refuses the first example, and so does a label of the wrong kind.
  · cases started : s.start with
    | error cause =>
      have refuses : s.machine.Refusing (Example.Alike n survival) cause := by
        intro e alike
        rw [take_none size alike, started]
        rfl
      exact .refuses refuses
    | ok start =>
      by_cases misfit : survival = true ∨ start.model.length ≠ n
      · obtain ⟨cause, refuses⟩ := additive.refuses_misfits size started misfit
        exact .refuses refuses
      · obtain ⟨plain, fits⟩ : survival = false ∧ start.model.length = n := by simpa using misfit
        subst plain size
        exact .sums (additive.summing started fits)
  · obtain ⟨cause, refuses⟩ := refuses_of_dimension survival size
    exact .refuses refuses

end Strategy

end Passwise
