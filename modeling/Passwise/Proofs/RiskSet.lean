import Passwise.Proofs.Breslow
import Passwise.Proofs.Shares

set_option autoImplicit false

namespace Passwise

open Matrix

variable {α : Type} [Exact α] {d : Nat}

theorem RiskSet.tolerance_pos : (0 : α) < tolerance := by
  simp [tolerance]

-- The groups of a stream so far: those that are closed, the oldest first, and the open one.
structure Groups (α : Type) where
  closed : List (List (Example α))
  group : List (Example α)

namespace Groups

def enter (g : Groups α) (e : Example α) : Groups α :=
  match g.group with
  | [] => ⟨g.closed, [e]⟩
  | first :: _ =>
    if RiskSet.tolerance ≤ first.time - e.time then ⟨g.closed ++ [g.group], [e]⟩
    else ⟨g.closed, g.group ++ [e]⟩

def ofStream (stream : List (Example α)) : Groups α := stream.foldl enter ⟨[], []⟩

def all (g : Groups α) : List (List (Example α)) := g.closed ++ [g.group]

theorem ofStream_snoc (stream : List (Example α)) (e : Example α) :
    ofStream (stream ++ [e]) = (ofStream stream).enter e := by
  simp [ofStream]

theorem flatten_enter (g : Groups α) (e : Example α) :
    (g.enter e).all.flatten = g.all.flatten ++ [e] := by
  unfold enter
  split
  · next empty => simp [all, empty]
  · split_ifs <;> simp [all]

theorem flatten_ofStream (stream : List (Example α)) : (ofStream stream).all.flatten = stream := by
  induction stream using List.reverseRecOn with
  | nil => rfl
  | append_singleton stream e ih => rw [ofStream_snoc, flatten_enter, ih]

theorem enter_group_ne_nil (g : Groups α) (e : Example α) : (g.enter e).group ≠ [] := by
  unfold enter
  split
  · simp
  · split_ifs <;> simp

theorem group_eq_nil {stream : List (Example α)} (empty : (ofStream stream).group = []) :
    stream = [] := by
  induction stream using List.reverseRecOn with
  | nil => rfl
  | append_singleton stream e _ =>
    rw [ofStream_snoc] at empty
    exact absurd empty (enter_group_ne_nil _ e)

open Breslow (Layered)

theorem layered_enter {g : Groups α} (layered : Layered g.all) {e : Example α}
    (started : g.group = [] → g.closed = [])
    (last : ∀ a ∈ g.all.flatten, e.time ≤ a.time)
    (separated : ∀ a ∈ g.all.flatten, e.time = a.time ∨ RiskSet.tolerance ≤ |e.time - a.time|) :
    Layered (g.enter e).all := by
  obtain ⟨closed, group⟩ := g
  cases group with
  | nil =>
    cases started rfl
    exact ⟨by simp [enter, all], by simp [enter, all]⟩
  | cons first more =>
    have level : ∀ a ∈ first :: more, a.time = first.time :=
      fun a member => layered.level _ (by simp [all]) a member first (by simp)
    have above : ∀ older ∈ closed, ∀ a ∈ older, first.time < a.time :=
      fun older member a inside => (List.pairwise_append.mp layered.falling).2.2 older member
        (first :: more) (List.mem_singleton.mpr rfl) a inside first (by simp)
    have below : e.time ≤ first.time := last first (by simp [all])
    unfold enter
    dsimp only
    split_ifs with apart
    · have later : e.time < first.time := by
        have := RiskSet.tolerance_pos (α := α)
        linarith
      refine layered.snoc (by simp) fun older member a inside b isLast => ?_
      obtain rfl := List.mem_singleton.mp isLast
      rcases List.mem_append.mp member with inClosed | isGroup
      · exact later.trans (above older inClosed a inside)
      · obtain rfl := List.mem_singleton.mp isGroup
        rwa [level a inside]
    -- Not apart from the first of the open group, the example has its time.
    · have tied : e.time = first.time := by
        rcases separated first (by simp [all]) with same | far
        · exact same
        · rw [abs_sub_comm, abs_of_nonneg (by linarith)] at far
          exact absurd far apart
      have levelWith : ∀ a ∈ first :: more ++ [e], a.time = first.time := by
        intro a member
        rcases List.mem_append.mp member with inGroup | isLast
        · exact level a inGroup
        · rwa [List.mem_singleton.mp isLast]
      refine layered.of_snoc.snoc (fun a inA b inB => ?_) fun older member a inside b inGroup => ?_
      · exact (levelWith a inA).trans (levelWith b inB).symm
      · rw [levelWith b inGroup]
        exact above older member a inside

theorem layered_ofStream {stream : List (Example α)}
    (falling : stream.Pairwise fun a b => b.time ≤ a.time)
    (separated : ∀ a ∈ stream, ∀ b ∈ stream,
      a.time = b.time ∨ RiskSet.tolerance ≤ |a.time - b.time|) :
    Layered (ofStream stream).all := by
  induction stream using List.reverseRecOn with
  | nil => exact ⟨by simp [ofStream, all], by simp [ofStream, all]⟩
  | append_singleton stream e ih =>
    obtain ⟨earlier, _, last⟩ := List.pairwise_append.mp falling
    have before := ih earlier fun a inA b inB =>
      separated a (List.mem_append_left _ inA) b (List.mem_append_left _ inB)
    rw [ofStream_snoc]
    refine layered_enter before (fun empty => ?_) ?_ ?_
    · rw [group_eq_nil empty]
      rfl
    · rw [flatten_ofStream]
      exact fun a member => last a member e (by simp)
    · rw [flatten_ofStream]
      exact fun a member => separated e (by simp) a (List.mem_append_left _ member)

end Groups

open Breslow

variable (w : Fin d → α) (exp_pos : ∀ x : α, 0 < Scalar.exp x)

def WeightSums.ofRisk (es : List (Example α)) : WeightSums α :=
  ⟨s0 w es, Vec.of (s1 w es), Mat.of (s2 w es)⟩

theorem WeightSums.ofRisk_nil : ofRisk w [] = .zero d := by
  simp [ofRisk, zero, s0, s1, s2]

theorem WeightSums.add_ofRisk (xs ys : List (Example α)) :
    (ofRisk w xs).add (ofRisk w ys) = ofRisk w (xs ++ ys) := by
  simp [ofRisk, add, s0, s1, s2]

namespace RiskSet

def holding (closed group : List (Example α)) (anchor : Option α) : RiskSet α where
  dimension := d
  closed := .ofRisk w closed
  groupTime := anchor
  group := .ofRisk w group
  deaths := (died group).length
  deathFeatures := Vec.of ((died group).map (point (d := d))).sum
  deathScore := ((died group).map (score w)).sum

theorem holding_nil : holding w [] [] none = empty d := by
  simp [holding, empty, WeightSums.ofRisk_nil, died]

def contributionOf (risk group : List (Example α)) : Contribution α :=
  let terms := groupTerms w risk group
  ⟨Vec.of terms.2.1, Mat.of terms.2.2, terms.1⟩

include exp_pos in
theorem contribution_holding (past group : List (Example α)) (anchor : Option α) :
    { holding w past group anchor with closed := .ofRisk w (past ++ group) }.contribution =
      .ok (contributionOf w (past ++ group) group) := by
  unfold contribution
  by_cases nobody : died group = []
  · rw [if_pos (by simp [holding, nobody])]
    simp [contributionOf, groupTerms, nobody, holding]
  · have someone : past ++ group ≠ [] := by
      intro empty
      exact nobody (by rw [(List.append_eq_nil_iff.mp empty).2]; rfl)
    have positive := s0_pos w exp_pos someone
    have counted : (holding w past group anchor).deaths ≠ 0 := by simpa [holding] using nobody
    rw [if_neg counted, if_neg (by simpa [WeightSums.ofRisk] using positive)]
    simp [contributionOf, groupTerms_eq, holding, WeightSums.ofRisk, mean]

include exp_pos in
theorem run_absorbGroup (past group : List (Example α)) (anchor : Option α) :
    absorbGroup.run (holding w past group anchor) =
      (.ok (contributionOf w (past ++ group) group), holding w (past ++ group) [] anchor) := by
  have closed : (holding w past group anchor).closed.add (holding w past group anchor).group =
      .ofRisk w (past ++ group) := WeightSums.add_ofRisk w past group
  unfold absorbGroup
  rw [Update.run_bind_ok (Update.run_modify _ _), Update.run_bind_ok (Update.run_get _), closed,
    contribution_holding w exp_pos, Update.run_bind_ok (Update.run_ofExcept _ _),
    Update.run_bind_ok (Update.run_modify _ _), Update.run_pure]
  simp [holding, WeightSums.ofRisk_nil, died]

theorem run_enter {e : Example α} (size : e.dimension = d) (past group : List (Example α))
    (anchor : Option α) :
    (enter e.features e.isDeath (score w e) (weight w e)).run (holding w past group anchor) =
      (.ok (), holding w past (group ++ [e]) anchor) := by
  have features : e.features = Vec.of (point e : Fin d → α) := (Vec.of_entries size).symm
  rw [features]
  cases dies : e.isDeath with
  | false =>
    simp [enter, holding, Update.run_bind, WeightSums.ofRisk, s0, s1, s2, died, dies]
  | true =>
    simp [enter, holding, Update.run_bind, WeightSums.ofRisk, s0, s1, s2, died, dies]

theorem run_add_of_advance [Exact.Finite α] {e : Example α} (alike : e.Alike d true)
    {r : RiskSet α} {closed : Option (Contribution α)} {past group : List (Example α)}
    {anchor : Option α}
    (advanced : (advance e.time).run r = (.ok closed, holding w past group anchor)) :
    (add (Vec.of w) e).run r = (.ok closed, holding w past (group ++ [e]) anchor) := by
  have entered := run_enter w alike.1 past group anchor
  have scored : Vec.dot? (Vec.of w) e.features = .ok (score w e) := by
    rw [← Vec.of_entries alike.1, Vec.dot?_of]
    rfl
  obtain ⟨features, label⟩ := e
  cases label with
  | plain y => simp [Example.Alike, Label.isSurvival] at alike
  | survival time event =>
    change (advance time).run r = _ at advanced
    change Vec.dot? (Vec.of w) features = _ at scored
    simp only [add]
    rw [Update.run_bind_ok advanced, scored, Update.run_bind_ok (Update.run_ofExcept _ _)]
    simp only [Exact.Finite.isFinite_true, Bool.not_true, Bool.false_eq_true, if_false]
    exact Update.run_bind_ok entered _

end RiskSet

namespace Groups

def riskSet (g : Groups α) : RiskSet α :=
  .holding w g.closed.flatten g.group (g.group.head?.map (·.time))

def closing (g : Groups α) (e : Example α) : Option (Contribution α) :=
  match g.group with
  | [] => none
  | first :: _ =>
    if RiskSet.tolerance ≤ first.time - e.time then
      some (RiskSet.contributionOf w (g.closed.flatten ++ g.group) g.group)
    else none

theorem closing_cases (g : Groups α) (e : Example α) :
    (g.closing w e = none ∧ (g.enter e).closed = g.closed) ∨
    (g.closing w e = some (RiskSet.contributionOf w (g.closed.flatten ++ g.group) g.group) ∧
      (g.enter e).closed = g.closed ++ [g.group]) := by
  unfold closing enter
  split
  · exact .inl ⟨rfl, rfl⟩
  · split_ifs
    · exact .inr ⟨rfl, rfl⟩
    · exact .inl ⟨rfl, rfl⟩

def InTime (g : Groups α) (e : Example α) : Prop :=
  ∀ first ∈ g.group.head?, ¬ first.time + RiskSet.tolerance < e.time

variable [Exact.Finite α]

include exp_pos in
theorem run_add {g : Groups α} {e : Example α} (alike : e.Alike d true) (inTime : g.InTime e) :
    (RiskSet.add (Vec.of w) e).run (g.riskSet w) =
      (.ok (g.closing w e), (g.enter e).riskSet w) := by
  obtain ⟨closed, group⟩ := g
  cases group with
  | nil =>
    have opened : (RiskSet.advance e.time).run (riskSet w ⟨closed, []⟩) =
        (.ok none, .holding w closed.flatten [] (some e.time)) := by
      unfold RiskSet.advance
      rw [Update.run_bind_ok (Update.run_get _)]
      rfl
    exact RiskSet.run_add_of_advance w alike opened
  | cons first more =>
    have anchored : (riskSet w ⟨closed, first :: more⟩).groupTime = some first.time := rfl
    have notLate : ¬ first.time + RiskSet.tolerance < e.time := inTime first rfl
    by_cases apart : RiskSet.tolerance ≤ first.time - e.time
    · have advanced : (RiskSet.advance e.time).run (riskSet w ⟨closed, first :: more⟩) =
          (.ok (some (RiskSet.contributionOf w (closed.flatten ++ first :: more) (first :: more))),
            .holding w (closed.flatten ++ first :: more) [] (some e.time)) := by
        have absorbed := RiskSet.run_absorbGroup w exp_pos closed.flatten (first :: more)
          (some first.time)
        unfold RiskSet.advance
        rw [Update.run_bind_ok (Update.run_get _), anchored]
        simp only [notLate, apart, if_true, if_false]
        change (RiskSet.absorbGroup >>= _).run (.holding w closed.flatten (first :: more)
          (some first.time)) = _
        rw [Update.run_bind_ok absorbed, Update.run_bind_ok (Update.run_modify _ _)]
        rfl
      have added := RiskSet.run_add_of_advance w alike advanced
      simpa [closing, enter, riskSet, apart] using added
    · have advanced : (RiskSet.advance e.time).run (riskSet w ⟨closed, first :: more⟩) =
          (.ok none, riskSet w ⟨closed, first :: more⟩) := by
        unfold RiskSet.advance
        rw [Update.run_bind_ok (Update.run_get _), anchored]
        simp only [notLate, apart, if_false]
        rfl
      have added := RiskSet.run_add_of_advance w alike advanced
      simpa [closing, enter, riskSet, apart] using added

omit [Exact.Finite α] in
theorem run_add_late {g : Groups α} {e : Example α} (alike : e.Alike d true) (late : ¬ g.InTime e) :
    (RiskSet.add (Vec.of w) e).run (g.riskSet w) = (.error .timesNotDescending, g.riskSet w) := by
  obtain ⟨first, head, late⟩ :
      ∃ first ∈ g.group.head?, first.time + RiskSet.tolerance < e.time := by
    simpa [InTime] using late
  have anchored : (g.riskSet w).groupTime = some first.time := by
    rw [Option.mem_def] at head
    simp [riskSet, RiskSet.holding, head]
  have refused : (RiskSet.advance e.time).run (g.riskSet w) =
      (.error .timesNotDescending, g.riskSet w) := by
    unfold RiskSet.advance
    rw [Update.run_bind_ok (Update.run_get _), anchored]
    simp only [late, if_true]
    rfl
  obtain ⟨features, label⟩ := e
  cases label with
  | plain y => simp [Example.Alike, Label.isSurvival] at alike
  | survival time event => exact Update.run_bind_error refused _

end Groups

end Passwise
