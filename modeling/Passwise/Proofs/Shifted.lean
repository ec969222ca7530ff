import Passwise.Proofs.Descent

set_option autoImplicit false

namespace Passwise

open Matrix

theorem Machine.exists_start_of_fold {β σ ρ : Type} {m : Machine β σ ρ}
    {stream : List (Example β)} {last : Option σ} (folded : m.fold stream none = .ok last)
    (someone : stream ≠ []) : ∃ start, m.start = .ok start := by
  cases stream with
  | nil => contradiction
  | cons e stream =>
    rw [fold_cons] at folded
    obtain ⟨next, taken, -⟩ := bind_eq_ok.mp folded
    obtain ⟨start, started, -⟩ := take_none_eq_ok taken
    exact ⟨start, started⟩

variable {α : Type} [Exact α] {d : Nat}

def Example.shift (c : Fin d → α) (e : Example α) : Example α :=
  { e with features := Vec.add e.features (Vec.of c) }

namespace Breslow

variable (w c : Fin d → α) {risk group : List (Example α)}

def Sized (d : Nat) (rows : List (Example α)) : Prop := ∀ e ∈ rows, e.dimension = d

theorem point_shift {e : Example α} (size : e.dimension = d) :
    (point (e.shift c) : Fin d → α) = point e + c := by
  have features : e.features = Vec.of (point e : Fin d → α) := (Vec.of_entries size).symm
  rw [point, Example.shift, features, Vec.add_of, Vec.entries_of]

theorem score_shift {e : Example α} (size : e.dimension = d) :
    score w (e.shift c) = w ⬝ᵥ c + score w e := by
  rw [score, point_shift c size, dotProduct_add, add_comm, score]

variable (exp_add : ∀ x y : α, Scalar.exp (x + y) = Scalar.exp x * Scalar.exp y)

include exp_add in
theorem weight_shift {e : Example α} (size : e.dimension = d) :
    weight w (e.shift c) = Scalar.exp (w ⬝ᵥ c) * weight w e := by
  rw [weight, score_shift w c size, exp_add, weight]

include exp_add in
theorem sums_shift (sized : Sized d risk) :
    s0 w (risk.map (·.shift c)) = Scalar.exp (w ⬝ᵥ c) * s0 w risk ∧
    s1 w (risk.map (·.shift c)) = Scalar.exp (w ⬝ᵥ c) • (s1 w risk + s0 w risk • c) ∧
    s2 w (risk.map (·.shift c)) = Scalar.exp (w ⬝ᵥ c) •
      (s2 w risk + vecMulVec (s1 w risk) c + vecMulVec c (s1 w risk) +
        s0 w risk • vecMulVec c c) := by
  induction risk with
  | nil => simp [s0, s1, s2]
  | cons e risk ih =>
    obtain ⟨size, sized⟩ := List.forall_mem_cons.mp sized
    obtain ⟨weights, firsts, seconds⟩ := ih sized
    simp only [s0, s1, s2, List.map_cons, List.sum_cons] at weights firsts seconds ⊢
    rw [weights, firsts, seconds, weight_shift w c exp_add size, point_shift c size]
    refine ⟨(mul_add _ _ _).symm, by module, ?_⟩
    simp only [add_vecMulVec, vecMulVec_add, smul_vecMulVec, vecMulVec_smul]
    module

theorem inv_mul_cancel_scaled {x : α} (nonzero : x ≠ 0) (y : α) : (x * y)⁻¹ * x = y⁻¹ := by
  rw [mul_inv, mul_right_comm, inv_mul_cancel₀ nonzero, one_mul]

variable (exp_pos : ∀ x : α, 0 < Scalar.exp x)
  (log_mul : ∀ x y : α, 0 < y → Scalar.log (Scalar.exp x * y) = x + Scalar.log y)

include exp_add exp_pos in
theorem mean_shift (sized : Sized d risk) (someone : risk ≠ []) :
    mean w (risk.map (·.shift c)) = mean w risk + c := by
  obtain ⟨weights, firsts, -⟩ := sums_shift w c exp_add sized
  have nonzero := (exp_pos (w ⬝ᵥ c)).ne'
  have positive := s0_pos w exp_pos someone
  rw [mean, weights, firsts, smul_smul, inv_mul_cancel_scaled nonzero, smul_add,
    smul_smul, inv_mul_cancel₀ positive.ne', one_smul, mean]

include exp_add exp_pos log_mul in
theorem term_shift (sized : Sized d risk) {i : Example α} (size : i.dimension = d)
    (someone : risk ≠ []) : term w (risk.map (·.shift c)) (i.shift c) = term w risk i := by
  obtain ⟨weights, -, seconds⟩ := sums_shift w c exp_add sized
  have nonzero := (exp_pos (w ⬝ᵥ c)).ne'
  have positive := s0_pos w exp_pos someone
  have means := mean_shift w c exp_add exp_pos sized someone
  have loss : -(score w (i.shift c) - Scalar.log (s0 w (risk.map (·.shift c)))) =
      -(score w i - Scalar.log (s0 w risk)) := by
    rw [weights, log_mul _ _ positive, score_shift w c size]
    ring
  have gradient : -(point (i.shift c) - mean w (risk.map (·.shift c))) =
      -(point i - mean w risk) := by
    rw [means, point_shift c size, add_sub_add_right_eq_sub]
  have hessian : (s0 w (risk.map (·.shift c)))⁻¹ • s2 w (risk.map (·.shift c)) -
      vecMulVec (mean w (risk.map (·.shift c))) (mean w (risk.map (·.shift c))) =
      (s0 w risk)⁻¹ • s2 w risk - vecMulVec (mean w risk) (mean w risk) := by
    rw [means, weights, seconds, smul_smul, inv_mul_cancel_scaled nonzero]
    simp only [mean, add_vecMulVec, vecMulVec_add, smul_vecMulVec, vecMulVec_smul, smul_add,
      smul_smul, inv_mul_cancel₀ positive.ne', one_smul]
    abel
  exact Prod.ext loss (Prod.ext gradient hessian)

include exp_add exp_pos log_mul in
theorem groupTerms_shift (sized : Sized d risk) (inside : group ⊆ risk) :
    groupTerms w (risk.map (·.shift c)) (group.map (·.shift c)) = groupTerms w risk group := by
  have deaths : died (group.map (·.shift c)) = (died group).map (·.shift c) := List.filter_map
  rw [groupTerms, deaths, List.map_map, groupTerms]
  refine congrArg List.sum (List.map_congr_left fun i member => ?_)
  have atRisk := inside (List.mem_of_mem_filter member)
  exact term_shift w c exp_add exp_pos log_mul sized (sized i atRisk) (List.ne_nil_of_mem atRisk)

include exp_add exp_pos log_mul in
theorem scored_shift {before : List (Example α)} {groups : List (List (Example α))}
    (sized : Sized d (before ++ groups.flatten)) :
    scored w (before.map (·.shift c)) (groups.map (List.map (·.shift c))) =
      scored w before groups := by
  induction groups generalizing before with
  | nil => rfl
  | cons group rest ih =>
    rw [List.flatten_cons, ← List.append_assoc] at sized
    have atRisk : Sized d (before ++ group) :=
      fun e member => sized e (List.mem_append_left _ member)
    have own := groupTerms_shift w c exp_add exp_pos log_mul atRisk
      (List.subset_append_right before group)
    rw [List.map_cons, scored, ← List.map_append, ih sized, own, scored]

end Breslow

namespace Groups

variable (c : Fin d → α)

def shift (g : Groups α) : Groups α :=
  ⟨g.closed.map (List.map (·.shift c)), g.group.map (·.shift c)⟩

theorem all_shift (g : Groups α) : (g.shift c).all = g.all.map (List.map (·.shift c)) := by
  simp [all, shift]

theorem enter_shift (g : Groups α) (e : Example α) :
    (g.shift c).enter (e.shift c) = (g.enter e).shift c := by
  obtain ⟨closed, group⟩ := g
  cases group with
  | nil => rfl
  | cons first more =>
    have same : (first.shift c).time - (e.shift c).time = first.time - e.time := rfl
    simp only [enter, shift, List.map_cons, same]
    split_ifs <;> simp

theorem ofStream_shift (stream : List (Example α)) :
    ofStream (stream.map (·.shift c)) = (ofStream stream).shift c := by
  induction stream using List.reverseRecOn with
  | nil => rfl
  | append_singleton stream e ih =>
    rw [List.map_append, List.map_singleton, ofStream_snoc, ofStream_snoc, ih, enter_shift]

theorem inTime_shift {g : Groups α} {e : Example α} (inTime : g.InTime e) :
    (g.shift c).InTime (e.shift c) := by
  intro first here
  rw [shift, List.head?_map, Option.mem_map] at here
  obtain ⟨first, here, rfl⟩ := here
  exact inTime first here

end Groups

namespace Newton

open Breslow

theorem inTime_shift (c : Fin d → α) {stream : List (Example α)} (inTime : InTime stream) :
    InTime (stream.map (·.shift c)) := by
  induction stream using List.reverseRecOn with
  | nil => exact inTime_nil
  | append_singleton stream e ih =>
    obtain ⟨earlier, last⟩ := (inTime_snoc stream e).mp inTime
    rw [List.map_append, List.map_singleton, inTime_snoc, Groups.ofStream_shift]
    exact ⟨ih earlier, Groups.inTime_shift c last⟩

theorem takes_shift (c : Fin d → α) {start : PassState α} {stream : List (Example α)}
    (takes : Takes d start stream) : Takes d start (stream.map (·.shift c)) where
  alike := by
    intro moved member
    obtain ⟨e, inside, rfl⟩ := List.mem_map.mp member
    obtain ⟨size, survival⟩ := takes.alike e inside
    have length : (Vec.add e.features (Vec.of c)).length = d := by
      rw [← Vec.of_entries size, Vec.add_of, Vec.length_of]
    exact ⟨length, survival⟩
  inTime := inTime_shift c takes.inTime
  fits some := takes.fits (by simpa using some)

variable [DenseSolver α] {n : Newton α}

theorem conclude_congr (state : PassState α) {totals : Totals α}
    (same : n.closedSums totals = n.closedSums state.totals) :
    n.machine.conclude (some { state with totals := totals }) =
      n.machine.conclude (some state) := by
  have penalized : n.penalized { state with totals := totals } = n.penalized state := by
    unfold Newton.penalized
    rw [same]
  change n.strategy.result _ = n.strategy.result _
  unfold Strategy.result
  change (if state.rows = 0 then _ else some <$> n.finish _) = if _ then _ else some <$> n.finish _
  unfold finish
  rw [penalized]

variable (exp_pos : ∀ x : α, 0 < Scalar.exp x)
  (exp_add : ∀ x y : α, Scalar.exp (x + y) = Scalar.exp x * Scalar.exp y)
  (log_mul : ∀ x y : α, 0 < y → Scalar.log (Scalar.exp x * y) = x + Scalar.log y)

include exp_pos exp_add log_mul in
theorem conclude_coxState_shift (cox : n.objective = .cox) (w c : Fin d → α)
    {start : PassState α} {stream : List (Example α)} (takes : Takes d start stream) :
    n.machine.conclude (some (coxState w start (stream.map (·.shift c)))) =
      n.machine.conclude (some (coxState w start stream)) := by
  by_cases empty : stream = []
  · rw [empty, List.map_nil]
  have someone : stream.map (·.shift c) ≠ [] := by simpa using empty
  have sized : Sized d ([] ++ (Groups.ofStream stream).all.flatten) := by
    rw [List.nil_append, Groups.flatten_ofStream]
    exact fun e member => (takes.alike e member).1
  have terms : scored w [] (Groups.ofStream (stream.map (·.shift c))).all =
      scored w [] (Groups.ofStream stream).all := by
    rw [Groups.ofStream_shift, Groups.all_shift]
    exact scored_shift w c exp_add exp_pos log_mul sized
  have before := closedSums_cox w exp_pos cox empty
  have after := closedSums_cox w exp_pos cox someone
  rw [terms] at after
  have rows : (stream.map (·.shift c)).length = stream.length := List.length_map _
  simp only [coxState, rows]
  exact conclude_congr (coxState w start stream) (after.trans before.symm)

theorem run_shift [Exact.Finite α] (exp_pos : ∀ x : α, 0 < Scalar.exp x)
    (exp_add : ∀ x y : α, Scalar.exp (x + y) = Scalar.exp x * Scalar.exp y)
    (log_mul : ∀ x y : α, 0 < y → Scalar.log (Scalar.exp x * y) = x + Scalar.log y)
    (cox : n.objective = .cox) (size : n.origin.task.dimension = d) {stream : List (Example α)}
    {last : Option (PassState α)} (accepted : n.machine.fold stream none = .ok last)
    (c : Fin d → α) :
    (∃ moved, n.machine.fold (stream.map (·.shift c)) none = .ok moved) ∧
      ∀ shape, n.machine.run shape [stream.map (·.shift c)] = n.machine.run shape [stream] := by
  by_cases empty : stream = []
  · rw [empty, List.map_nil]
    exact ⟨⟨none, rfl⟩, fun _ => rfl⟩
  obtain ⟨start, started⟩ := Machine.exists_start_of_fold accepted empty
  have takes := takes_of_fold exp_pos cox size started accepted
  let w := Vec.entries d start.model
  have model : start.model = Vec.of w := (Vec.of_entries (takes.fits empty)).symm
  have moved := takes_shift c takes
  have someone : stream.map (·.shift c) ≠ [] := by simpa using empty
  have first := fold_cox w exp_pos cox started size model takes.alike takes.inTime
  have second := fold_cox w exp_pos cox started size model moved.alike moved.inTime
  rw [coxReached, if_neg empty] at first
  rw [coxReached, if_neg someone] at second
  refine ⟨⟨_, second⟩, fun shape => ?_⟩
  rw [Machine.run_singleton, Machine.run_singleton, first, second]
  exact conclude_coxState_shift exp_pos exp_add log_mul cox w c takes

theorem run_shift_tied :
    let s : Snapshot ℝ := ⟨.unit .cox, [0], 0, 0, .null, .fresh, none, none, none⟩
    let n : Newton ℝ := ⟨⟨.unit .cox, some s⟩, 1000, rfl, rfl⟩
    let moved : List (Example ℝ) := [⟨[6], .survival 3 true⟩, ⟨[8], .survival 3 false⟩]
    ∃ found, n.machine.run .tree [tied] = .ok (some found) ∧ found.model = [-1 / 2] ∧
      n.machine.run .tree [moved] = .ok (some found) := by
  intro s n moved
  let w : Fin 1 → ℝ := fun _ => 0
  let start : PassState ℝ := ⟨.unit .cox, [0], .fresh, (0 : Share ℝ 1).totals true, 0⟩
  have started : n.strategy.start = .ok start :=
    start_resumed (n := n) rfl ⟨rfl, rfl⟩
  have someone : tied ≠ [] := by simp [tied]
  have alike : ∀ e ∈ tied, e.Alike 1 true := by
    simp [tied, Example.Alike, Example.dimension, Label.isSurvival]
  have falling : tied.Pairwise fun a b => b.time ≤ a.time := by
    simp [tied, Example.time, Label.number]
  have folded := fold_cox w Real.exp_pos (n := n) rfl started rfl rfl alike
    (inTime_of_falling falling)
  rw [coxReached, if_neg someone] at folded
  have closed := closedSums_cox (n := n) w Real.exp_pos rfl someone
  rw [scored_tied] at closed
  have penalized := penalized_of w (n := n) (coxState w start tied)
    (Real.log 2, fun _ => 1, Matrix.of fun _ _ => 1) rfl rfl closed
  have weight : (coxState w start tied).task.regularization = 1 := rfl
  have sums : n.penalized (coxState w start tied) = .ok ⟨[1], [[2]], Real.log 2⟩ := by
    rw [penalized, weight]
    norm_num [w, Vec.of, Mat.of]
  have taken : (coxState w start tied).rows ≠ 0 := by simp [coxState, tied]
  obtain ⟨found, concluded, model⟩ := conclude_single sums (by norm_num)
    (by norm_num [Rotation.large]) (by norm_num [n]) taken rfl
  have ran : n.machine.run .tree [tied] = .ok (some found) := by
    rw [Machine.run_singleton, folded, ok_bind, concluded]
  have log_mul (x y : ℝ) (positive : 0 < y) : Real.log (Real.exp x * y) = x + Real.log y := by
    rw [Real.log_mul (Real.exp_ne_zero x) positive.ne', Real.log_exp]
  obtain ⟨-, same⟩ := run_shift (n := n) Real.exp_pos Real.exp_add log_mul rfl rfl folded
    fun _ : Fin 1 => (5 : ℝ)
  have added : tied.map (·.shift fun _ : Fin 1 => (5 : ℝ)) = moved := by
    norm_num [tied, moved, Example.shift, Vec.add, Vec.of]
  refine ⟨found, ran, ?_, ?_⟩
  · rw [model]
    norm_num
  · rw [← added]
    exact (same .tree).trans ran

end Newton

end Passwise
