import Passwise.Proofs.Cox
import Passwise.Proofs.Sizes

set_option autoImplicit false

namespace Passwise

open Matrix Breslow

variable {α : Type} [Exact α] {d : Nat} (w : Fin d → α)

theorem Breslow.scored_eq_sum (before : List (Example α)) (groups : List (List (Example α))) :
    scored w before groups = ∑ i : Fin groups.length,
      groupTerms w (before ++ (groups.take (i + 1)).flatten) groups[i] := by
  induction groups generalizing before with
  | nil => rfl
  | cons group rest ih =>
    simp only [scored, ih, List.length_cons, Fin.sum_univ_succ]
    simp

def Groups.closedTerms (g : Groups α) : α × (Fin d → α) × Matrix (Fin d) (Fin d) α :=
  ∑ i : Fin g.closed.length, groupTerms w (g.closed.take (i + 1)).flatten g.closed[i]

theorem Groups.scored_closed (g : Groups α) : scored w [] g.closed = g.closedTerms w :=
  scored_eq_sum w [] g.closed

namespace RiskSet

theorem timed_of_add (model : Vec α) (e : Example α) :
    Update.Ensures (fun _ => True) (add model e) fun _ _ => e.label.isSurvival = true := by
  unfold add
  cases e.label with
  | plain value => exact .throw _
  | survival time event => exact fun _ _ _ _ _ => rfl

end RiskSet

namespace Totals

theorem fits_of_addToRisk {model : Vec α} {e : Example α} {t t' : Totals α}
    (added : (addToRisk model e).exec t = .ok t') :
    e.label.isSurvival = true ∧ model.length = e.dimension := by
  have inside : Update.Ensures (fun _ => True) (RiskSet.add model e) fun _ _ =>
      e.label.isSurvival = true ∧ model.length = e.dimension := fun r b r' _ done =>
    ⟨RiskSet.timed_of_add model e trivial done, RiskSet.length_of_add model e trivial done⟩
  have ensures : Update.Ensures (fun _ => True) (addToRisk model e) fun _ _ =>
      e.label.isSurvival = true ∧ model.length = e.dimension :=
    .bind (.onPart inside (fun _ _ => trivial) fun _ _ _ _ fits => fits) fun _ => .fixed _
  obtain ⟨_, fits⟩ := ensures.exec trivial added
  exact fits

end Totals

namespace Newton

variable [DenseSolver α] {n : Newton α}

theorem alike_of_take_cox (cox : n.objective = .cox) (size : n.origin.task.dimension = d)
    {e : Example α} {state : PassState α} {next : Option (PassState α)}
    (taken : (n.machine.take e).exec (some state) = .ok next) :
    e.Alike d true ∧ state.model.length = d := by
  obtain ⟨accepted, reached, absorbed, -⟩ := Machine.take_some_eq_ok taken
  have dimension : e.dimension = d := size ▸ Strategy.dimension_of_accepts accepted
  change (n.strategy.absorb e).exec state = _ at absorbed
  rw [exec_absorb_cox cox] at absorbed
  rcases added : (Totals.addToRisk state.model e).exec state.totals with _ | totals
  · rw [added] at absorbed
    cases absorbed
  · obtain ⟨timed, model⟩ := Totals.fits_of_addToRisk added
    exact ⟨⟨dimension, timed⟩, model.trans dimension⟩

omit [DenseSolver α] in
theorem inTime_snoc (stream : List (Example α)) (e : Example α) :
    InTime (stream ++ [e]) ↔ InTime stream ∧ (Groups.ofStream stream).InTime e := by
  constructor
  · intro whole
    refine ⟨fun before x after split => ?_, whole stream e [] rfl⟩
    exact whole before x (after ++ [e]) (by rw [split]; simp)
  · rintro ⟨earlier, last⟩ before x after split
    rcases List.eq_nil_or_concat after with rfl | ⟨rest, y, rfl⟩
    · obtain ⟨rfl, rfl⟩ := List.append_inj' split rfl |>.imp id List.singleton_inj.mp
      exact last
    · have front : stream ++ [e] = (before ++ x :: rest) ++ [y] := by simpa using split
      exact earlier before x rest (List.append_inj' front rfl).1

omit [DenseSolver α] in
theorem inTime_nil : InTime ([] : List (Example α)) := by
  intro before e after split
  simp at split

structure Takes (d : Nat) (start : PassState α) (stream : List (Example α)) : Prop where
  alike : ∀ e ∈ stream, e.Alike d true
  inTime : InTime stream
  fits : stream ≠ [] → start.model.length = d

variable [Exact.Finite α] (exp_pos : ∀ x : α, 0 < Scalar.exp x)

include exp_pos in
theorem takes_of_fold (cox : n.objective = .cox) (size : n.origin.task.dimension = d)
    {start : PassState α} (started : n.strategy.start = .ok start) {stream : List (Example α)}
    {last : Option (PassState α)} (folded : n.machine.fold stream none = .ok last) :
    Takes d start stream := by
  induction stream using List.reverseRecOn generalizing last with
  | nil => exact ⟨by simp, inTime_nil, by simp⟩
  | append_singleton stream e ih =>
    rw [Machine.fold_append] at folded
    obtain ⟨reached, front, taken⟩ := bind_eq_ok.mp folded
    rw [Machine.fold_cons] at taken
    obtain ⟨next, taken, -⟩ := bind_eq_ok.mp taken
    have earlier := ih front
    have own : e.Alike d true ∧ start.model.length = d := by
      cases reached with
      | none =>
        rw [← Machine.take_start started] at taken
        exact alike_of_take_cox cox size taken
      | some state =>
        refine ⟨(alike_of_take_cox cox size taken).1, earlier.fits ?_⟩
        rintro rfl
        cases front
    have model : start.model = Vec.of (Vec.entries d start.model) := (Vec.of_entries own.2).symm
    have known := fold_cox _ exp_pos cox started size model earlier.alike earlier.inTime
    rw [front, Except.ok.injEq] at known
    rw [known, take_cox _ cox started size model stream own.1] at taken
    have inTime : (Groups.ofStream stream).InTime e := by
      by_contra late
      rw [Totals.addToRisk_late _ own.1 late] at taken
      cases taken
    refine ⟨fun x member => ?_, (inTime_snoc stream e).mpr ⟨earlier.inTime, inTime⟩, fun _ => own.2⟩
    rcases List.mem_append.mp member with inside | isLast
    · exact earlier.alike x inside
    · rw [List.mem_singleton.mp isLast]
      exact own.1

def coxFrom (start : PassState α) (stream : List (Example α)) : PassState α :=
  if stream = [] then start else coxState w start stream

include exp_pos in
theorem fold_from_start (cox : n.objective = .cox) (size : n.origin.task.dimension = d)
    {start : PassState α} (started : n.strategy.start = .ok start) {stream : List (Example α)}
    {last : Option (PassState α)} (folded : n.machine.fold stream (some start) = .ok last) :
    Takes d start stream ∧ last = some (coxFrom (Vec.entries d start.model) start stream) := by
  by_cases empty : stream = []
  · subst empty
    cases folded
    exact ⟨⟨by simp, inTime_nil, by simp⟩, rfl⟩
  · rw [Machine.fold_start started empty] at folded
    have takes := takes_of_fold exp_pos cox size started folded
    have model : start.model = Vec.of (Vec.entries d start.model) :=
      (Vec.of_entries (takes.fits empty)).symm
    rw [fold_cox _ exp_pos cox started size model takes.alike takes.inTime, Except.ok.injEq,
      coxReached, if_neg empty] at folded
    rw [coxFrom, if_neg empty]
    exact ⟨takes, folded.symm⟩

omit [Exact.Finite α] in
theorem totals_from (size : n.origin.task.dimension = d) {start : PassState α}
    (started : n.strategy.start = .ok start) (stream : List (Example α)) :
    let g := Groups.ofStream stream
    let sums := scored w [] g.closed
    (coxFrom w start stream).totals = ⟨sums.1, some (Vec.of sums.2.1), some (Mat.of sums.2.2),
      if stream = [] then none else some (g.riskSet w)⟩ := by
  intro g sums
  by_cases empty : stream = []
  · subst empty size
    obtain ⟨_, _, made⟩ := Strategy.start_fresh started
    rw [coxFrom, if_pos rfl, if_pos rfl, made.trans (Totals.secondOrder_eq _)]
    rfl
  · rw [coxFrom, if_neg empty, if_neg empty]
    rfl

include exp_pos in
omit [Exact.Finite α] in
theorem closedSums_from (cox : n.objective = .cox) (size : n.origin.task.dimension = d)
    {start : PassState α} (started : n.strategy.start = .ok start) (stream : List (Example α)) :
    let sums := scored w [] (Groups.ofStream stream).all
    n.closedSums (coxFrom w start stream).totals =
      .ok ⟨Vec.of sums.2.1, Mat.of sums.2.2, sums.1⟩ := by
  intro sums
  by_cases empty : stream = []
  · have none : sums = 0 := by
      subst empty
      exact add_zero 0
    rw [totals_from w size started, if_pos empty, empty, none]
    rfl
  · rw [coxFrom, if_neg empty]
    exact closedSums_cox w exp_pos cox empty

theorem totals_of_prefix (exp_pos : ∀ x : α, 0 < Scalar.exp x) (cox : n.objective = .cox)
    (size : n.origin.task.dimension = d) {start : PassState α}
    (started : n.strategy.start = .ok start) {initial last : Option (PassState α)}
    (begins : initial = none ∨ initial = some start) {before after : List (Example α)}
    (accepted : n.machine.fold (before ++ after) initial = .ok last) :
    let w : Fin d → α := Vec.entries d start.model
    let g := Groups.ofStream before
    let closed := g.closedTerms w
    let sums := closed + groupTerms w before g.group
    ∃ reached, n.machine.fold before initial = .ok reached ∧ (before ≠ [] → reached ≠ none) ∧
      ∀ state ∈ reached,
        state.totals = {
          loss := closed.1
          gradient := some (Vec.of closed.2.1)
          hessian := some (Mat.of closed.2.2)
          risk := if before = [] then none else some {
            dimension := d
            closed := .ofRisk w g.closed.flatten
            groupTime := g.group.head?.map (·.time)
            group := .ofRisk w g.group
            deaths := (died g.group).length
            deathFeatures := Vec.of ((died g.group).map (point (d := d))).sum
            deathScore := ((died g.group).map (score w)).sum } } ∧
        n.closedSums state.totals = .ok ⟨Vec.of sums.2.1, Mat.of sums.2.2, sums.1⟩ := by
  intro w g closed sums
  have whole : scored w [] g.closed = closed := g.scored_closed w
  have parts : g.closed.flatten ++ g.group = before := by
    simpa [Groups.all] using Groups.flatten_ofStream before
  have ended := closedSums_from w exp_pos cox size started before
  rw [Groups.all, scored_snoc, List.nil_append, parts, whole] at ended
  have totals := totals_from w size started before
  dsimp only at totals
  rw [whole] at totals
  rw [Machine.fold_append] at accepted
  obtain ⟨reached, front, -⟩ := bind_eq_ok.mp accepted
  have known : reached = some (coxFrom w start before) ∨ before = [] ∧ reached = none := by
    rcases begins with rfl | rfl
    · by_cases empty : before = []
      · subst empty
        cases front
        exact .inr ⟨rfl, rfl⟩
      · rw [← Machine.fold_start started empty] at front
        exact .inl (fold_from_start exp_pos cox size started front).2
    · exact .inl (fold_from_start exp_pos cox size started front).2
  refine ⟨reached, front, ?_, ?_⟩
  · rcases known with rfl | ⟨empty, -⟩
    · intro _ none
      cases none
    · exact fun some => absurd empty some
  · rintro state inside
    rcases known with rfl | ⟨-, rfl⟩
    · cases inside
      rw [totals] at ended ⊢
      exact ⟨rfl, ended⟩
    · cases inside

-- The third time is near the second, but as far from the first as the tolerance. The last one is
-- above the time of its group.
theorem totals_of_prefix_chained :
    let s : Snapshot ℝ := ⟨.unit .cox, [2], 0, 0, .null, .fresh, none, none, none⟩
    let n : Newton ℝ := ⟨⟨.unit .cox, some s⟩, 1000, rfl, rfl⟩
    let first : Example ℝ := ⟨[1], .survival 3 true⟩
    let near : Example ℝ := ⟨[3], .survival (3 - 8 / 10000000) false⟩
    let apart : Example ℝ := ⟨[2], .survival (3 - 1 / 1000000) true⟩
    let above : Example ℝ := ⟨[1], .survival (3 - 5 / 10000000) true⟩
    let w : Fin 1 → ℝ := fun _ => 2
    let closed := groupTerms w [first, near] [first, near]
    let sums := closed + groupTerms w [first, near, apart] [apart]
    (∃ last, n.machine.fold [first, near, apart, above] none = .ok last) ∧
    ∃ state, n.machine.fold [first, near, apart] none = .ok (some state) ∧
      state.totals.gradient = some (Vec.of closed.2.1) ∧
      state.totals.risk = some {
        dimension := 1
        closed := .ofRisk w [first, near]
        groupTime := some (3 - 1 / 1000000)
        group := .ofRisk w [apart]
        deaths := 1
        deathFeatures := [2]
        deathScore := 4 } ∧
      n.closedSums state.totals = .ok ⟨Vec.of sums.2.1, Mat.of sums.2.2, sums.1⟩ := by
  intro s n first near apart above w closed sums
  have started := start_resumed (n := n) rfl ⟨rfl, rfl⟩
  have one : Groups.ofStream [first] = ⟨[], [first]⟩ := rfl
  have two : Groups.ofStream [first, near] = ⟨[], [first, near]⟩ := by
    norm_num [Groups.ofStream, Groups.enter, Example.time, Label.number, RiskSet.tolerance, first,
      near]
  have three : Groups.ofStream [first, near, apart] = ⟨[[first, near]], [apart]⟩ := by
    norm_num [Groups.ofStream, Groups.enter, Example.time, Label.number, RiskSet.tolerance, first,
      near, apart]
  have inTime : InTime [first, near, apart, above] := by
    refine (inTime_snoc [first, near, apart] above).mpr ⟨(inTime_snoc [first, near] apart).mpr
      ⟨(inTime_snoc [first] near).mpr ⟨(inTime_snoc [] first).mpr ⟨inTime_nil, ?_⟩, ?_⟩, ?_⟩, ?_⟩
    · simp [Groups.InTime, Groups.ofStream]
    · rw [Groups.InTime, one]
      norm_num [Example.time, Label.number, RiskSet.tolerance, first, near]
    · rw [Groups.InTime, two]
      norm_num [Example.time, Label.number, RiskSet.tolerance, first, apart]
    · rw [Groups.InTime, three]
      norm_num [Example.time, Label.number, RiskSet.tolerance, apart, above]
  have alike : ∀ e ∈ [first, near, apart, above], e.Alike 1 true := by
    simp [first, near, apart, above, Example.Alike, Example.dimension, Label.isSurvival]
  have accepted : n.machine.fold ([first, near, apart] ++ [above]) none = _ :=
    fold_cox w Real.exp_pos rfl started rfl rfl alike inTime
  refine ⟨⟨_, accepted⟩, ?_⟩
  have size : n.origin.task.dimension = 1 := rfl
  obtain ⟨reached, front, known, holds⟩ :=
    totals_of_prefix Real.exp_pos rfl size started (.inl rfl) accepted
  obtain ⟨state, rfl⟩ := Option.ne_none_iff_exists'.mp (known (by simp))
  obtain ⟨totals, ended⟩ := holds state rfl
  have entries : Vec.entries 1 s.model = w := Vec.entries_of w
  have terms : Groups.closedTerms w ⟨[[first, near]], [apart]⟩ = closed := by
    simp [Groups.closedTerms, closed]
  simp only [entries, three, terms] at totals ended
  refine ⟨state, front, ?_, ?_, ended⟩
  · rw [totals]
  · rw [totals]
    dsimp only
    rw [if_neg (by simp)]
    norm_num [died, Example.isDeath, apart, point, score, w, Vec.of, Vec.entries, Example.time,
      Label.number, dotProduct]

end Newton

end Passwise
