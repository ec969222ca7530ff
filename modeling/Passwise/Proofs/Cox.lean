import Passwise.Proofs.Reals
import Passwise.Proofs.RiskSet
import Passwise.Proofs.Uniform
import Passwise.Source

set_option autoImplicit false

namespace Passwise

open Matrix Breslow

variable {α : Type} [Exact α] {d : Nat} (w : Fin d → α)

def Groups.totals (g : Groups α) : Totals α :=
  let sums := scored w [] g.closed
  ⟨sums.1, some (Vec.of sums.2.1), some (Mat.of sums.2.2), some (g.riskSet w)⟩

namespace Totals

theorem addContribution_of {t : Totals α} {g : Fin d → α} {m : Matrix (Fin d) (Fin d) α}
    (gradient : t.gradient = some (Vec.of g)) (hessian : t.hessian = some (Mat.of m))
    (loss : α) (h : Fin d → α) (k : Matrix (Fin d) (Fin d) α) :
    (addContribution ⟨Vec.of h, Mat.of k, loss⟩).exec t =
      .ok { t with
        loss := t.loss + loss
        gradient := some (Vec.of (g + h))
        hessian := some (Mat.of (m + k)) } := by
  have first := addGradient_of gradient h
  have second := addHessian_of (t := { t with gradient := some (Vec.of (g + h)) }) hessian k
  simp [addContribution, Update.exec_bind_unit, first, second, addLoss]

variable [Exact.Finite α] (exp_pos : ∀ x : α, 0 < Scalar.exp x)

include exp_pos in
theorem addToRisk_inTime {g : Groups α} {e : Example α} (alike : e.Alike d true)
    (inTime : g.InTime e) :
    (addToRisk (Vec.of w) e).exec (g.totals w) = .ok ((g.enter e).totals w) := by
  have added := Groups.run_add w exp_pos alike inTime
  have kept : (Update.onPart (fun totals => totals.risk.getD (.empty (Vec.of w).length))
      (fun risk totals => { totals with risk := some risk }) (RiskSet.add (Vec.of w) e)).run
        (g.totals w) =
      (.ok (g.closing w e), { g.totals w with risk := some ((g.enter e).riskSet w) }) := by
    rw [Update.run_onPart]
    change (((RiskSet.add (Vec.of w) e).run (g.riskSet w)).1,
      { g.totals w with risk := some ((RiskSet.add (Vec.of w) e).run (g.riskSet w)).2 }) = _
    rw [added]
  unfold addToRisk
  rw [Update.exec_bind_ok kept]
  rcases g.closing_cases w e with ⟨closing, closed⟩ | ⟨closing, closed⟩
  · rw [closing, Groups.totals, Groups.totals, closed]
    rfl
  · rw [closing]
    dsimp only
    rw [RiskSet.contributionOf, addContribution_of rfl rfl, Groups.totals, Groups.totals, closed,
      scored_snoc, List.nil_append]
    rfl

omit [Exact.Finite α] in
theorem addToRisk_late {g : Groups α} {e : Example α} (alike : e.Alike d true)
    (late : ¬ g.InTime e) :
    (addToRisk (Vec.of w) e).exec (g.totals w) = .error .timesNotDescending := by
  have refused := Groups.run_add_late w alike late
  unfold addToRisk
  refine Update.exec_bind_error (t := g.totals w) ?_ _
  rw [Update.run_onPart]
  change (((RiskSet.add (Vec.of w) e).run (g.riskSet w)).1,
    { g.totals w with risk := some ((RiskSet.add (Vec.of w) e).run (g.riskSet w)).2 }) = _
  rw [refused]
  rfl

omit [Exact.Finite α] in
theorem addToRisk_first (e : Example α) :
    (addToRisk (Vec.of w) e).exec ((0 : Share α d).totals true) =
      (addToRisk (Vec.of w) e).exec ((Groups.ofStream []).totals w) := by
  have empty : (Groups.ofStream []).riskSet w = .empty (Vec.of w).length := by
    rw [Vec.length_of, ← RiskSet.holding_nil w]
    rfl
  have part : ((Groups.ofStream []).totals w).risk.getD (.empty (Vec.of w).length) =
      ((0 : Share α d).totals true).risk.getD (.empty (Vec.of w).length) := empty
  unfold addToRisk
  rw [Update.exec, Update.exec, Update.run_bind, Update.run_bind, Update.run_onPart,
    Update.run_onPart, part]
  rfl

end Totals

namespace Newton

variable [DenseSolver α] {n : Newton α}

def coxState (start : PassState α) (stream : List (Example α)) : PassState α :=
  { start with totals := (Groups.ofStream stream).totals w, rows := stream.length }

def coxReached (start : PassState α) (stream : List (Example α)) : Option (PassState α) :=
  if stream = [] then none else some (coxState w start stream)

def InTime (stream : List (Example α)) : Prop :=
  ∀ before e after, stream = before ++ e :: after → (Groups.ofStream before).InTime e

omit [DenseSolver α] in
theorem exec_step_cox (cox : n.objective = .cox) (e : Example α) (state : PassState α) :
    (n.step e).exec state =
      (fun totals => { state with totals := totals }) <$>
        (Totals.addToRisk state.model e).exec state.totals := by
  simp [step, cox, Totals.addExample, Objective.usesRiskSet]

theorem exec_absorb_cox (cox : n.objective = .cox) (e : Example α) (state : PassState α) :
    (n.strategy.absorb e).exec state =
      (fun totals => { state with totals := totals, rows := state.rows + 1 }) <$>
        (Totals.addToRisk state.model e).exec state.totals := by
  rw [Strategy.exec_absorb]
  change _ <$> (n.step e).exec state = _
  rw [exec_step_cox cox]
  cases (Totals.addToRisk state.model e).exec state.totals <;> rfl

theorem take_cox (cox : n.objective = .cox) {start : PassState α}
    (started : n.strategy.start = .ok start) (size : n.origin.task.dimension = d)
    (model : start.model = Vec.of w) (stream : List (Example α)) {e : Example α}
    (alike : e.Alike d true) :
    (n.machine.take e).exec (coxReached w start stream) =
      (fun totals => some { coxState w start (stream ++ [e]) with totals := totals }) <$>
        (Totals.addToRisk (Vec.of w) e).exec ((Groups.ofStream stream).totals w) := by
  obtain ⟨_, rows, made⟩ := Strategy.start_fresh started
  subst size
  by_cases first : stream = []
  · have totals : start.totals = (0 : Share α _).totals true := made.trans (Totals.secondOrder_eq _)
    subst first
    change (n.strategy.machine.take e).exec none = _
    rw [Strategy.take_none rfl alike, started, ok_bind, exec_absorb_cox cox, model, totals,
      Totals.addToRisk_first, rows]
    cases (Totals.addToRisk (Vec.of w) e).exec ((Groups.ofStream []).totals w) with
    | error cause => rfl
    | ok totals => simp [coxState, model]
  · rw [coxReached, if_neg first]
    change (n.strategy.machine.take e).exec (some (coxState w start stream)) = _
    rw [Strategy.take_some rfl alike, exec_absorb_cox cox]
    simp only [coxState, model, List.length_append, List.length_singleton, Nat.cast_add,
      Nat.cast_one]
    cases (Totals.addToRisk (Vec.of w) e).exec ((Groups.ofStream stream).totals w) <;> rfl

variable [Exact.Finite α] (exp_pos : ∀ x : α, 0 < Scalar.exp x)

include exp_pos in
theorem fold_cox (cox : n.objective = .cox) {start : PassState α}
    (started : n.strategy.start = .ok start) (size : n.origin.task.dimension = d)
    (model : start.model = Vec.of w) {stream : List (Example α)}
    (alike : ∀ e ∈ stream, e.Alike d true) (inTime : InTime stream) :
    n.machine.fold stream none = .ok (coxReached w start stream) := by
  -- From the back: the groups of a stream are those of its front, entered by the last example.
  induction stream using List.reverseRecOn with
  | nil => rfl
  | append_singleton stream e ih =>
    have earlier : n.machine.fold stream none = .ok (coxReached w start stream) := by
      refine ih (fun x member => alike x (List.mem_append_left _ member)) ?_
      intro before x after split
      exact inTime before x (after ++ [e]) (by rw [split]; simp)
    have own : e.Alike d true := alike e (by simp)
    have taken := take_cox w cox started size model stream own
    rw [Totals.addToRisk_inTime w exp_pos own (inTime stream e [] rfl), map_ok] at taken
    rw [Machine.fold_append, earlier, ok_bind]
    simp only [Machine.fold, List.foldlM_cons, List.foldlM_nil, taken, ok_bind]
    simp [coxReached, coxState, Groups.ofStream_snoc]

omit [DenseSolver α] [Exact.Finite α] in
theorem inTime_of_falling {stream : List (Example α)}
    (falling : stream.Pairwise fun a b => b.time ≤ a.time) : InTime stream := by
  intro before e after split first head
  have inside : first ∈ before := by
    rw [← Groups.flatten_ofStream before]
    simp [Groups.all, List.mem_of_mem_head? head]
  have notAfter : e.time ≤ first.time := by
    rw [split] at falling
    exact (List.pairwise_append.mp falling).2.2 first inside e (by simp)
  have positive := RiskSet.tolerance_pos (α := α)
  linarith

include exp_pos in
omit [DenseSolver α] [Exact.Finite α] in
theorem closedSums_cox (cox : n.objective = .cox) {stream : List (Example α)}
    (someone : stream ≠ []) :
    let sums := scored w [] (Groups.ofStream stream).all
    n.closedSums ((Groups.ofStream stream).totals w) =
      .ok ⟨Vec.of sums.2.1, Mat.of sums.2.2, sums.1⟩ := by
  obtain ⟨first, more, group⟩ : ∃ first more, (Groups.ofStream stream).group = first :: more :=
    List.exists_cons_of_ne_nil fun empty => someone (Groups.group_eq_nil empty)
  have pending := RiskSet.run_absorbGroup w exp_pos (Groups.ofStream stream).closed.flatten
    (Groups.ofStream stream).group ((Groups.ofStream stream).group.head?.map (·.time))
  have opened : ((Groups.ofStream stream).riskSet w).isEmpty = false := by
    simp [RiskSet.isEmpty, Groups.riskSet, RiskSet.holding, group]
  have known : (!n.objective.usesRiskSet) = false := by simp [cox, Objective.usesRiskSet]
  change (RiskSet.absorbGroup.run ((Groups.ofStream stream).riskSet w)) = _ at pending
  simp only [closedSums, Groups.totals, opened, known, Bool.false_eq_true, if_false, pending,
    RiskSet.contributionOf, ok_bind, Vec.add?_of, Mat.add?_of, pure_ok, Groups.all, scored_snoc,
    List.nil_append]
  rfl

end Newton

namespace Source

theorem byDescendingTime_perm (source : Source α) :
    source.byDescendingTime.Perm source.examples :=
  List.mergeSort_perm _ _

theorem byDescendingTime_falling [Exact.Finite α] (source : Source α) :
    source.byDescendingTime.Pairwise fun a b => b.time ≤ a.time := by
  have ordered (a b : α) : notBefore a b = decide (b ≤ a) := by simp [notBefore]
  unfold byDescendingTime
  simp only [ordered]
  refine (List.pairwise_mergeSort ?_ ?_ source.examples).imp fun h => of_decide_eq_true h
  · intro a b c first second
    exact decide_eq_true ((of_decide_eq_true second).trans (of_decide_eq_true first))
  · intro a b
    simpa using le_total b.time a.time

end Source

namespace Newton

variable [DenseSolver α] [Exact.Finite α] {n : Newton α}

omit [DenseSolver α] [Exact.Finite α] in
theorem penalty_eq (n : Newton α) : n.objective.penalty = .l2 := by
  have smooth : n.objective.penalty.smooth = true := n.smooth
  cases known : n.objective.penalty with
  | l1 => simp [known, Penalty.smooth] at smooth
  | l2 => rfl

omit [DenseSolver α] [Exact.Finite α] in
theorem penalized_of (state : PassState α)
    (sums : α × (Fin d → α) × Matrix (Fin d) (Fin d) α) (size : state.task.dimension = d)
    (model : state.model = Vec.of w)
    (closed : n.closedSums state.totals = .ok ⟨Vec.of sums.2.1, Mat.of sums.2.2, sums.1⟩) :
    n.penalized state = .ok {
      loss := sums.1 + state.task.regularization / 2 * (w ⬝ᵥ w)
      gradient := Vec.of (sums.2.1 + state.task.regularization • w)
      hessian := Mat.of (sums.2.2 + state.task.regularization • 1) } := by
  have penalty := n.penalty_eq
  subst size
  have half : Scalar.half * state.task.regularization * (w ⬝ᵥ w) =
      state.task.regularization / 2 * (w ⬝ᵥ w) := by
    rw [Exact.half_eq]
    ring
  simp [penalized, closed, penalty, Penalty.gradient, Penalty.hessian, Penalty.loss, model, half]

omit [Exact.Finite α] in
theorem start_resumed {s : Snapshot α} (previous : n.origin.previous = some s)
    (same : n.origin.task.dimension = s.task.dimension ∧
      n.origin.task.objective = s.task.objective) :
    n.strategy.start = .ok
      ⟨n.origin.task, s.model, s.memory, (0 : Share α n.origin.task.dimension).totals true, 0⟩ := by
  rw [Strategy.start_resumed (s := n.strategy) previous same]
  change Except.ok (⟨_, _, _, Totals.secondOrder _, _⟩ : PassState α) = _
  rw [Totals.secondOrder_eq]
  rfl

theorem cox_sums_eq_breslow (exp_pos : ∀ x : α, 0 < Scalar.exp x) (cox : n.objective = .cox)
    (size : n.origin.task.dimension = d) {start : PassState α}
    (started : n.strategy.start = .ok start) (model : start.model = Vec.of w)
    {source : Source α} (sourceSize : source.dimension = d) (timed : source.survival = true)
    {rows : List (Example α)} (order : source.examples.Perm rows)
    (separated : ∀ a ∈ rows, ∀ b ∈ rows, a.time = b.time ∨ 1 / 1000000 ≤ |a.time - b.time|) :
    let weight := n.origin.task.regularization
    ∃ state,
      n.machine.fold source.byDescendingTime none = .ok (if rows = [] then none else some state) ∧
      n.penalized state = .ok {
        loss := loss w rows + weight / 2 * (w ⬝ᵥ w)
        gradient := Vec.of (Breslow.gradient w rows + weight • w)
        hessian := Mat.of (hessian w rows + weight • 1) } := by
  intro weight
  have stream : source.byDescendingTime.Perm rows := source.byDescendingTime_perm.trans order
  have falling := source.byDescendingTime_falling
  have alike : ∀ e ∈ source.byDescendingTime, e.Alike d true := by
    intro e member
    rw [← sourceSize, ← timed]
    exact source.uniform e (source.byDescendingTime_perm.mem_iff.mp member)
  obtain ⟨task, _, made⟩ := Strategy.start_fresh started
  have folded := fold_cox w exp_pos cox started size model alike (inTime_of_falling falling)
  have layered := Groups.layered_ofStream falling fun a inA b inB => by
    simpa [RiskSet.tolerance] using separated a (stream.mem_iff.mp inA) b (stream.mem_iff.mp inB)
  have terms : scored w [] (Groups.ofStream source.byDescendingTime).all =
      (loss w rows, Breslow.gradient w rows, hessian w rows) := by
    rw [scored_layered w layered (by simp), Groups.flatten_ofStream, List.nil_append,
      sum_terms_perm w stream, sum_terms]
  have taskSize : start.task.dimension = d := by rw [task]; exact size
  have taskWeight : start.task.regularization = weight := by rw [task]; rfl
  by_cases empty : rows = []
  -- Without rows there is no state, but the sums of a start are those of no rows at all.
  · refine ⟨start, ?_, ?_⟩
    · rw [folded, if_pos empty, coxReached, if_pos (by simpa [empty] using stream)]
    · subst empty size
      have totals : start.totals = (0 : Share α _).totals true :=
        made.trans (Totals.secondOrder_eq _)
      have closed : n.closedSums start.totals =
          .ok ⟨Vec.of (Breslow.gradient w []), Mat.of (hessian w []), loss w []⟩ := by
        simp [totals, closedSums, Share.totals, loss, Breslow.gradient, hessian, died]
      rw [← taskWeight]
      exact penalized_of w start (loss w [], Breslow.gradient w [], hessian w []) taskSize model
        closed
  · have someone : source.byDescendingTime ≠ [] := fun none => empty (by simpa [none] using stream)
    refine ⟨coxState w start source.byDescendingTime, ?_, ?_⟩
    · rw [folded, if_neg empty, coxReached, if_neg someone]
    · have closed := closedSums_cox w exp_pos cox someone
      rw [terms] at closed
      rw [← taskWeight]
      exact penalized_of w (coxState w start source.byDescendingTime) _ taskSize model closed

theorem cox_sums_eq_breslow_tied :
    let s : Snapshot ℝ := ⟨.unit .cox, [2], 0, 0, .null, .fresh, none, none, none⟩
    let n : Newton ℝ := ⟨⟨.unit .cox, some s⟩, 1000, rfl, rfl⟩
    let rows : List (Example ℝ) :=
      [⟨[1], .survival 3 true⟩, ⟨[4], .survival 1 true⟩, ⟨[2], .survival 3 false⟩]
    let source : Source ℝ :=
      ⟨1, true, rows.reverse, by simp [rows, Example.dimension, Label.isSurvival]⟩
    let w : Fin 1 → ℝ := fun _ => 2
    ∃ state, n.machine.fold source.byDescendingTime none = .ok (some state) ∧
      n.penalized state = .ok {
        loss := loss w rows + 1 / 2 * (w ⬝ᵥ w)
        gradient := Vec.of (Breslow.gradient w rows + (1 : ℝ) • w)
        hessian := Mat.of (hessian w rows + (1 : ℝ) • 1) } := by
  intro s n rows source w
  have started := start_resumed (n := n) rfl ⟨rfl, rfl⟩
  have model : [(2 : ℝ)] = Vec.of w := rfl
  have order : source.examples.Perm rows := List.reverse_perm rows
  have separated : ∀ a ∈ rows, ∀ b ∈ rows, a.time = b.time ∨ 1 / 1000000 ≤ |a.time - b.time| := by
    norm_num [rows, Example.time, Label.number]
  exact cox_sums_eq_breslow w Real.exp_pos rfl rfl started model rfl rfl order separated

end Newton

end Passwise
