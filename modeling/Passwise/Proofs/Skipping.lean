import Passwise.Proofs.Reals
import Passwise.Proofs.Intake

set_option autoImplicit false

namespace Passwise

namespace Machine

variable {α σ ρ : Type}

def leaves (m : Machine α σ ρ) (examples : List (Example α)) (state : Option σ) : Option σ :=
  examples.foldl (fun state e => (m.take e).left state) state

def taken (m : Machine α σ ρ) : List (Example α) → Option σ → List (Example α)
  | [], _ => []
  | e :: rest, state =>
    if ((m.take e).exec state).isOk then e :: m.taken rest ((m.take e).left state)
    else m.taken rest ((m.take e).left state)

variable {m : Machine α σ ρ} {e : Example α} {state next : Option σ}

theorem leaves_of_run {result : Except Error Unit} (ran : (m.take e).run state = (result, next))
    (rest : List (Example α)) : m.leaves (e :: rest) state = m.leaves rest next := by
  have reached : (m.take e).left state = next := congrArg Prod.snd ran
  rw [leaves, List.foldl_cons, reached]
  rfl

theorem taken_of_ok (ran : (m.take e).run state = (.ok (), next)) (rest : List (Example α)) :
    m.taken (e :: rest) state = e :: m.taken rest next := by
  have reached : (m.take e).left state = next := congrArg Prod.snd ran
  rw [taken, Update.exec_of_run ran, reached]
  rfl

theorem taken_of_error {cause : Error} (ran : (m.take e).run state = (.error cause, next))
    (rest : List (Example α)) : m.taken (e :: rest) state = m.taken rest next := by
  have reached : (m.take e).left state = next := congrArg Prod.snd ran
  rw [taken, Update.exec, ran, reached]
  rfl

theorem eq_none_of_run {cause : Error} (ran : (m.take e).run none = (.error cause, next)) :
    next = none := by
  rcases accepted : m.accepts e with _ | _
  · rw [run_take_refused accepted] at ran
    exact (congrArg Prod.snd ran).symm
  unfold take at ran
  rw [accepted, Update.run_bind_ok (Update.run_ofExcept _ _), Update.run_bind_ok (Update.run_get _)]
    at ran
  rcases started : m.start with _ | s
  · rw [started] at ran
    exact (congrArg Prod.snd ran).symm
  rw [started] at ran
  dsimp only at ran
  rw [Update.run_bind_ok (Update.run_ofExcept _ _)] at ran
  rcases absorbed : (m.absorb e).exec s with _ | _
  · rw [absorbed] at ran
    exact (congrArg Prod.snd ran).symm
  · rw [absorbed] at ran
    cases ran

end Machine

variable {α : Type} [Scalar α]

namespace RiskSet

-- The first of all, or one whose time is apart from the group that is open.
def Opens (r : RiskSet α) (time : α) : Prop :=
  ∀ groupTime ∈ r.groupTime, ¬ groupTime + tolerance < time ∧ tolerance ≤ groupTime - time

variable {r r' : RiskSet α} {model : Vec α} {e : Example α} {d : Nat}

theorem run_advance {time : α} (joins : ¬ r.Opens time) :
    (advance time).run r = (.ok none, r) ∨
      (advance time).run r = (.error .timesNotDescending, r) := by
  unfold advance
  rw [Update.run_bind_ok (Update.run_get _)]
  cases known : r.groupTime with
  | none => exact absurd (by simp [Opens, known]) joins
  | some groupTime =>
    dsimp only
    split_ifs with late apart
    · exact .inr rfl
    · exact absurd (by simp [Opens, known, late, apart]) joins
    · exact .inl rfl

theorem run_add_of_joins (fits : r.Fits model.length)
    (joins : ∀ time event, e.label = .survival time event → ¬ r.Opens time) :
    (∃ cause, (add model e).run r = (.error cause, r)) ∨
      ∃ r', (add model e).run r = (.ok none, r') := by
  unfold add
  rcases label : e.label with value | ⟨time, event⟩
  · exact .inl ⟨_, rfl⟩
  rcases run_advance (joins time event label) with done | late
  · rw [Update.run_bind_ok done]
    rcases scored : Vec.dot? model e.features with cause | score
    · exact .inl ⟨cause, rfl⟩
    rw [Update.run_bind_ok (Update.run_ofExcept _ _)]
    dsimp only
    split_ifs
    · exact .inl ⟨_, rfl⟩
    · obtain ⟨r', entered⟩ := run_enter_ok fits (Vec.length_dot? scored).symm event score
        (Scalar.exp score)
      exact .inr ⟨r', by rw [Update.run_bind_ok entered]; rfl⟩
  · exact .inl ⟨_, Update.run_bind_error late _⟩

end RiskSet

namespace PassState

def settled (state : PassState α) : PassState α :=
  { state with totals := { state.totals with risk := some state.risk } }

theorem settled_of_some {state : PassState α} {r : RiskSet α}
    (known : state.totals.risk = some r) : state.settled = state := by
  obtain ⟨task, model, memory, totals, rows⟩ := state
  obtain ⟨loss, gradient, hessian, risk⟩ := totals
  cases known
  rfl

end PassState

namespace Newton

variable [DenseSolver α] {n : Newton α} {e : Example α} {state : PassState α}

theorem run_take_settled (cox : n.objective = .cox)
    (size : e.dimension = n.origin.task.dimension) (state : PassState α) :
    (n.machine.take e).run (some state.settled) = (n.machine.take e).run (some state) := by
  rcases added : (Totals.addToRisk state.model e).run state.totals with ⟨cause | _, totals⟩
  · rw [run_take_error cox size added]
    exact run_take_error cox size added
  · rw [run_take_ok cox size added]
    exact run_take_ok cox size added

omit [DenseSolver α] in
theorem penalized_settled (state : PassState α) :
    n.penalized state.settled = n.penalized state := by
  cases known : state.totals.risk with
  | some r => rw [PassState.settled_of_some known]
  | none =>
    have made : state.settled.totals.risk = some (.empty state.model.length) := by
      simp [PassState.settled, PassState.risk, known]
    have sums : n.closedSums state.settled.totals = n.closedSums state.totals := by
      unfold closedSums
      rw [known, made]
      rfl
    unfold penalized
    rw [sums]
    rfl

theorem conclude_settled (state : PassState α) :
    n.machine.conclude (some state.settled) = n.machine.conclude (some state) := by
  have finished : n.finish state.settled = n.finish state := by
    unfold finish
    rw [penalized_settled]
    rfl
  change n.strategy.result state.settled = n.strategy.result state
  unfold Strategy.result
  change (if state.rows = 0 then _ else do return some (← n.finish state.settled)) =
    if state.rows = 0 then _ else do return some (← n.finish state)
  rw [finished]

def KeepsGroups (n : Newton α) (examples : List (Example α)) (state : Option (PassState α)) :
    Prop :=
  ∀ front e back left cause time event, examples = front ++ e :: back →
    n.machine.leaves front state = some left → (n.machine.take e).exec (some left) = .error cause →
    e.dimension = n.origin.task.dimension → e.label = .survival time event →
    ¬ left.risk.Opens time

theorem KeepsGroups.tail {rest : List (Example α)} {state next : Option (PassState α)}
    {result : Except Error Unit} (keeps : n.KeepsGroups (e :: rest) state)
    (ran : (n.machine.take e).run state = (result, next)) : n.KeepsGroups rest next := by
  rintro front x back left cause time event rfl reached
  refine keeps (e :: front) x back left cause time event rfl ?_
  rwa [Machine.leaves_of_run ran]

theorem settled_of_error (cox : n.objective = .cox) {state next : Option (PassState α)}
    {cause : Error} (fits : ∀ s ∈ state, s.risk.Fits s.model.length)
    (ran : (n.machine.take e).run state = (.error cause, next))
    (joins : ∀ s ∈ state, e.dimension = n.origin.task.dimension → ∀ time event,
      e.label = .survival time event → ¬ s.risk.Opens time) :
    next.map PassState.settled = state.map PassState.settled := by
  cases state with
  | none => rw [Machine.eq_none_of_run ran]
  | some s =>
    by_cases size : e.dimension = n.origin.task.dimension
    · rcases RiskSet.run_add_of_joins (fits s rfl) (joins s rfl size) with ⟨_, kept⟩ | ⟨_, entered⟩
      · rw [run_take_error cox size (Totals.run_addToRisk_error kept)] at ran
        cases ran
        exact congrArg some (PassState.settled_of_some rfl)
      · rw [run_take_ok cox size (Totals.run_addToRisk_joins entered)] at ran
        cases ran
    · rw [run_take_mismatch size] at ran
      cases ran
      rfl

omit [DenseSolver α] in
theorem fits_of_alike {state state' : Option (PassState α)}
    (alike : state.map PassState.settled = state'.map PassState.settled)
    (fits : ∀ s ∈ state, s.risk.Fits s.model.length) :
    ∀ s ∈ state', s.risk.Fits s.model.length := by
  rintro s' rfl
  obtain ⟨s, rfl, same⟩ := Option.map_eq_some_iff.mp alike
  have model : s.settled.model = s'.settled.model := by rw [same]
  have risk : s.settled.totals.risk = s'.settled.totals.risk := by rw [same]
  change s.model = s'.model at model
  change some s.risk = some s'.risk at risk
  rw [← model, ← Option.some.inj risk]
  exact fits s rfl

theorem take_alike (cox : n.objective = .cox) {state state' next : Option (PassState α)}
    (alike : state.map PassState.settled = state'.map PassState.settled)
    (taken : (n.machine.take e).exec state = .ok next) :
    (n.machine.take e).exec state' = .ok next := by
  cases state with
  | none =>
    cases state' with
    | none => exact taken
    | some s' => cases alike
  | some s =>
    cases state' with
    | none => cases alike
    | some s' =>
      have same : s.settled = s'.settled := Option.some.inj alike
      have size : e.dimension = n.origin.task.dimension := by
        by_contra other
        rw [Update.exec, run_take_mismatch other] at taken
        cases taken
      rw [Update.exec, ← run_take_settled cox size] at taken ⊢
      rwa [← same]

theorem conclude_of_alike {state state' : Option (PassState α)}
    (alike : state.map PassState.settled = state'.map PassState.settled) :
    n.machine.conclude state = n.machine.conclude state' := by
  have same (state : Option (PassState α)) :
      n.machine.conclude (state.map PassState.settled) = n.machine.conclude state := by
    cases state with
    | none => rfl
    | some s => exact conclude_settled s
  rw [← same state, alike, same]

omit [DenseSolver α] in
theorem penalized_of_alike {state state' : Option (PassState α)}
    (alike : state.map PassState.settled = state'.map PassState.settled) :
    state.map n.penalized = state'.map n.penalized := by
  have same (state : Option (PassState α)) :
      (state.map PassState.settled).map n.penalized = state.map n.penalized := by
    rw [Option.map_map]
    exact Option.map_congr fun s _ => penalized_settled s
  rw [← same state, alike, same]

theorem fold_taken (cox : n.objective = .cox) {examples : List (Example α)}
    {state state' : Option (PassState α)} (fits : ∀ s ∈ state, s.risk.Fits s.model.length)
    (keeps : n.KeepsGroups examples state)
    (alike : state.map PassState.settled = state'.map PassState.settled) :
    ∃ last, n.machine.fold (n.machine.taken examples state) state' = .ok last ∧
      last.map PassState.settled =
        (n.machine.leaves examples state).map PassState.settled := by
  induction examples generalizing state state' with
  | nil => exact ⟨state', rfl, alike.symm⟩
  | cons e rest ih =>
    rcases ran : (n.machine.take e).run state with ⟨cause | _, next⟩
    · have kept : next.map PassState.settled = state.map PassState.settled := by
        refine settled_of_error cox fits ran ?_
        rintro s rfl size time event
        exact keeps [] e rest s cause time event rfl rfl (by rw [Update.exec, ran]) size
      rw [Machine.leaves_of_run ran, Machine.taken_of_error ran]
      exact ih (fits_of_alike kept.symm fits) (keeps.tail ran) (kept.trans alike)
    · have went := Update.exec_of_run ran
      rw [Machine.leaves_of_run ran, Machine.taken_of_ok ran, Machine.fold_cons,
        take_alike cox alike went, ok_bind]
      exact ih (fits_of_take cox fits went) (keeps.tail ran) rfl

theorem conclude_leaves (cox : n.objective = .cox) {start : PassState α}
    (started : n.strategy.start = .ok start) {before examples : List (Example α)}
    {state : Option (PassState α)}
    (reached : n.machine.fold before none = .ok state ∨
      n.machine.fold before (some start) = .ok state)
    (keeps : n.KeepsGroups examples state) :
    ∃ last, n.machine.fold (n.machine.taken examples state) state = .ok last ∧
      last.map n.penalized = (n.machine.leaves examples state).map n.penalized ∧
      n.machine.conclude last = n.machine.conclude (n.machine.leaves examples state) := by
  have fits : ∀ s ∈ state, s.risk.Fits s.model.length := by
    rcases reached with folded | folded
    · exact fits_of_fold cox (by simp) folded
    · refine fits_of_fold cox ?_ folded
      rintro _ ⟨⟩
      exact fits_of_start started
  obtain ⟨last, folded, alike⟩ := fold_taken cox fits keeps rfl
  exact ⟨last, folded, penalized_of_alike alike, conclude_of_alike alike⟩

end Newton

noncomputable section

-- The reals, but not finite from the bound of the doubles on.
def Capped : Type := ℝ

namespace Capped

instance : Exact Capped :=
  { (inferInstanceAs (Exact ℝ) : Exact Capped) with
    isFinite := fun x : ℝ => decide (|x| < ((2 ^ 1024 : ℕ) : ℝ)) }

instance : DenseSolver Capped := ⟨Rotation.condition, Elimination.solve, Elimination.inverse⟩

theorem isFinite_iff (x : Capped) : Scalar.isFinite x = true ↔ |x| < 2 ^ 1024 := by
  change decide ((|x| : ℝ) < ((2 ^ 1024 : ℕ) : ℝ)) = true ↔ _
  rw [decide_eq_true_iff, Nat.cast_pow, Nat.cast_ofNat]
  rfl

theorem exp_zero : Scalar.exp (0 : Capped) = 1 := Real.exp_zero

theorem isFinite_one : Scalar.isFinite (1 : Capped) = true := by
  rw [isFinite_iff, abs_one]
  exact one_lt_pow₀ one_lt_two (by norm_num)

theorem isFinite_exp : Scalar.isFinite (Scalar.exp (1024 : Capped)) = false := by
  have two : (2 : ℝ) ≤ Real.exp 1 := by
    have := Real.add_one_le_exp (1 : ℝ)
    linarith
  have large := pow_le_pow_left₀ zero_le_two two 1024
  rw [← Real.exp_nat_mul, mul_one] at large
  rw [← Bool.not_eq_true, isFinite_iff, not_lt]
  exact large.trans (le_abs_self _)

def task : Task Capped :=
  ⟨1, .cox, 1, 1, Nat.one_pos, by simp [Scalar.isAdmissible, isFinite_one],
    by simp [Scalar.isAdmissible, isFinite_one]⟩

def newton : Newton Capped :=
  ⟨⟨task, some ⟨task, [1], 0, 0, .null, .fresh, none, none, none⟩⟩, 1000, rfl, rfl⟩

def stateOf (risk : Option (RiskSet Capped)) (rows : Int) : PassState Capped :=
  ⟨task, [1], .fresh, ⟨0, some [0], some [[0]], risk⟩, rows⟩

def riskOf (weight : Capped) (deaths : Nat) : RiskSet Capped :=
  ⟨1, .zero 1, some 5, ⟨weight, [0], [[0]]⟩, deaths, [0], 0⟩

theorem started : newton.strategy.start = .ok (stateOf none 0) := rfl

def overflow : Error := .nonFinite "Cox risk score" (Scalar.render (Scalar.exp (1024 : Capped)))

theorem advance_same (weight : Capped) (deaths : Nat) :
    (RiskSet.advance 5).run (riskOf weight deaths) = (.ok none, riskOf weight deaths) := by
  have late : ¬ (5 : Capped) + RiskSet.tolerance < 5 := by norm_num [RiskSet.tolerance]
  have apart : ¬ RiskSet.tolerance ≤ (5 : Capped) - 5 := by norm_num [RiskSet.tolerance]
  unfold RiskSet.advance
  simp only [riskOf, Update.run_bind_ok (Update.run_get _), late, apart, if_false]
  rfl

def closedRisk (weight : Capped) : RiskSet Capped :=
  ⟨1, ⟨weight, [0], [[0]]⟩, some 4, .zero 1, 0, [0], 0⟩

theorem run_absorbGroup : RiskSet.absorbGroup.run (riskOf 2 1) =
    (.ok ⟨[0], [[0]], Real.log 2⟩, { closedRisk 2 with groupTime := some 5 }) := by
  have log : Scalar.log (2 : Capped) = Real.log 2 := rfl
  have contribution : RiskSet.contribution { riskOf 2 1 with closed := ⟨2, [0], [[0]]⟩ } =
      .ok ⟨[0], [[0]], Real.log 2⟩ := by
    norm_num [RiskSet.contribution, riskOf, Vec.neg, Vec.sub, Vec.scale, Mat.scale, Mat.sub,
      Mat.outer, ← log]
  have entered : (riskOf 2 1).closed.add (riskOf 2 1).group = ⟨2, [0], [[0]]⟩ := by
    simp [riskOf, WeightSums.zero, WeightSums.add, Vec.add, Vec.zeros, Mat.zeros]
  unfold RiskSet.absorbGroup
  rw [Update.run_bind_ok (Update.run_modify _ _), Update.run_bind_ok (Update.run_get _), entered,
    contribution, Update.run_bind_ok (Update.run_ofExcept _ _)]
  rfl

theorem advance_apart : (RiskSet.advance 4).run (riskOf 2 1) =
    (.ok (some ⟨[0], [[0]], Real.log 2⟩), closedRisk 2) := by
  have late : ¬ (5 : Capped) + RiskSet.tolerance < 4 := by norm_num [RiskSet.tolerance]
  have apart : RiskSet.tolerance ≤ (5 : Capped) - 4 := by norm_num [RiskSet.tolerance]
  have anchored : (riskOf 2 1).groupTime = some 5 := rfl
  unfold RiskSet.advance
  rw [Update.run_bind_ok (Update.run_get _), anchored]
  simp only [late, apart, if_false, if_true]
  rw [Update.run_bind_ok run_absorbGroup]
  rfl

attribute [local simp] Update.run_bind exp_zero isFinite_one isFinite_exp Vec.dot? Vec.dot
  RiskSet.enter Vec.addTo Mat.addTo Vec.add Vec.scale Mat.scale Mat.outer

theorem add_first : (RiskSet.add ([1] : Vec Capped) ⟨[0], .survival 5 false⟩).run (.empty 1) =
    (.ok none, riskOf 1 0) := by
  simp [RiskSet.add, RiskSet.advance, RiskSet.empty, WeightSums.zero, Vec.zeros, Mat.zeros]
  rfl

theorem add_death : (RiskSet.add ([1] : Vec Capped) ⟨[0], .survival 5 true⟩).run (riskOf 1 0) =
    (.ok none, riskOf 2 1) := by
  unfold RiskSet.add
  dsimp only
  rw [Update.run_bind_ok (advance_same 1 0)]
  norm_num [riskOf]
  rfl

theorem add_overflow {time : Capped} {r r' : RiskSet Capped}
    {closed : Option (Contribution Capped)}
    (advanced : (RiskSet.advance time).run r = (.ok closed, r')) :
    (RiskSet.add [1] ⟨[1024], .survival time true⟩).run r = (.error overflow, r') := by
  unfold RiskSet.add
  dsimp only
  rw [Update.run_bind_ok advanced]
  simp
  rfl

variable {risk : Option (RiskSet Capped)} {r : RiskSet Capped} {e : Example Capped}

theorem take_joins (size : e.dimension = 1) (rows : Int)
    (added : (RiskSet.add [1] e).run (risk.getD (.empty 1)) = (.ok none, r)) :
    (newton.machine.take e).run (some (stateOf risk rows)) =
      (.ok (), some (stateOf (some r) (rows + 1))) :=
  Newton.run_take_ok rfl size (Totals.run_addToRisk_joins added)

theorem take_fails (size : e.dimension = 1) (rows : Int) {cause : Error}
    (failed : (RiskSet.add [1] e).run (risk.getD (.empty 1)) = (.error cause, r)) :
    (newton.machine.take e).run (some (stateOf risk rows)) =
      (.error cause, some (stateOf (some r) rows)) :=
  Newton.run_take_error rfl size (Totals.run_addToRisk_error failed)

def first : Example Capped := ⟨[0], .survival 5 false⟩

def death : Example Capped := ⟨[0], .survival 5 true⟩

def beyond (time : Capped) : Example Capped := ⟨[1024], .survival time true⟩

def late : Example Capped := ⟨[0], .survival 6 true⟩

theorem take_first : (newton.machine.take first).run (some (stateOf none 0)) =
    (.ok (), some (stateOf (some (riskOf 1 0)) 1)) :=
  take_joins rfl 0 add_first

theorem take_death : (newton.machine.take death).run (some (stateOf (some (riskOf 1 0)) 1)) =
    (.ok (), some (stateOf (some (riskOf 2 1)) 2)) :=
  take_joins rfl 1 add_death

theorem take_beyond : (newton.machine.take (beyond 5)).run
    (some (stateOf (some (riskOf 1 0)) 1)) =
      (.error overflow, some (stateOf (some (riskOf 1 0)) 1)) :=
  take_fails rfl 1 (add_overflow (advance_same 1 0))

theorem take_apart : (newton.machine.take (beyond 4)).run
    (some (stateOf (some (riskOf 2 1)) 2)) =
      (.error overflow, some (stateOf (some (closedRisk 2)) 2)) :=
  take_fails rfl 2 (add_overflow advance_apart)

theorem take_late : (newton.machine.take late).run
    (some (stateOf (some (riskOf 1 0)) 1)) =
      (.error .timesNotDescending, some (stateOf (some (riskOf 1 0)) 1)) := by
  have after : (5 : Capped) + RiskSet.tolerance < 6 := by norm_num [RiskSet.tolerance]
  have advanced : (RiskSet.advance 6).run (riskOf 1 0) =
      (.error .timesNotDescending, riskOf 1 0) := by
    unfold RiskSet.advance
    simp only [riskOf, Update.run_bind_ok (Update.run_get _), after, if_true]
    rfl
  exact take_fails rfl 1 (Update.run_bind_error advanced _)

theorem fold_first : newton.machine.fold [first] (some (stateOf none 0)) =
    .ok (some (stateOf (some (riskOf 1 0)) 1)) := by
  rw [Machine.fold_cons, Update.exec_of_run take_first]
  rfl

theorem keepsGroups :
    newton.KeepsGroups [beyond 5, late, death] (some (stateOf (some (riskOf 1 0)) 1)) := by
  have near : ¬ (riskOf 1 0).Opens 5 := by
    intro opens
    have apart := (opens 5 rfl).2
    norm_num [RiskSet.tolerance] at apart
  have after : ¬ (riskOf 1 0).Opens 6 := by
    intro opens
    have inTime := (opens 5 rfl).1
    norm_num [RiskSet.tolerance] at inTime
  have one : newton.machine.leaves [beyond 5] (some (stateOf (some (riskOf 1 0)) 1)) =
      some (stateOf (some (riskOf 1 0)) 1) := Machine.leaves_of_run take_beyond []
  have two : newton.machine.leaves [beyond 5, late] (some (stateOf (some (riskOf 1 0)) 1)) =
      some (stateOf (some (riskOf 1 0)) 1) := by
    rw [Machine.leaves_of_run take_beyond, Machine.leaves_of_run take_late]
    rfl
  rintro front e back left cause time event split reached - - label
  rcases front with _ | ⟨x, _ | ⟨y, _ | ⟨z, more⟩⟩⟩
  · cases split
    cases reached
    cases label
    exact near
  · cases split
    rw [one] at reached
    cases reached
    cases label
    exact after
  · cases split
    rw [two] at reached
    cases reached
    cases label
    exact near
  · have length := congrArg List.length split
    simp at length

theorem conclude_leaves_between :
    let state := some (stateOf (some (riskOf 1 0)) 1)
    let examples := [beyond 5, late, death]
    newton.strategy.start = .ok (stateOf none 0) ∧
      newton.machine.fold [first] (some (stateOf none 0)) = .ok state ∧
      newton.KeepsGroups examples state ∧ newton.machine.taken examples state = [death] ∧
      ∃ last, newton.machine.fold [death] state = .ok last ∧
        last.map newton.penalized = (newton.machine.leaves examples state).map newton.penalized ∧
        newton.machine.conclude last =
          newton.machine.conclude (newton.machine.leaves examples state) := by
  intro state examples
  have taken : newton.machine.taken examples state = [death] := by
    rw [Machine.taken_of_error take_beyond, Machine.taken_of_error take_late,
      Machine.taken_of_ok take_death]
    rfl
  have ended := Newton.conclude_leaves rfl started (.inr fold_first) keepsGroups
  rw [taken] at ended
  exact ⟨started, fold_first, keepsGroups, taken, ended⟩

theorem penalized_of {state : PassState Capped} {gradient hessian loss : Capped}
    (model : state.model = [1]) (same : state.task = task)
    (closed : newton.closedSums state.totals = .ok ⟨[gradient], [[hessian]], loss⟩) :
    newton.penalized state = .ok ⟨[gradient + 1], [[hessian + 1]], loss + 1 / 2⟩ := by
  have kind : newton.objective.penalty = .l2 := rfl
  have weight : task.regularization = 1 := rfl
  have size : task.dimension = 1 := rfl
  unfold Newton.penalized
  rw [closed, kind, model, same, weight, size]
  simp [Penalty.gradient, Penalty.hessian, Penalty.loss, Vec.add?, Mat.add?, Vec.combine,
    Mat.combine, Mat.identity, Exact.half_eq]

theorem penalized_open : newton.penalized (stateOf (some (riskOf 2 1)) 2) =
    .ok ⟨[1], [[1]], Scalar.log 2 + 1 / 2⟩ := by
  have closed : newton.closedSums (stateOf (some (riskOf 2 1)) 2).totals =
      .ok ⟨[0], [[0]], Scalar.log 2⟩ := by
    have opened : (riskOf 2 1).isEmpty = false := rfl
    have known : newton.objective.usesRiskSet = true := rfl
    simp [Newton.closedSums, stateOf, opened, known, run_absorbGroup, Vec.add?, Mat.add?,
      Vec.combine, Mat.combine]
    rfl
  rw [penalized_of rfl rfl closed, zero_add]

theorem penalized_closed : newton.penalized (stateOf (some (closedRisk 2)) 2) =
    .ok ⟨[1], [[1]], 1 / 2⟩ := by
  have closed : newton.closedSums (stateOf (some (closedRisk 2)) 2).totals =
      .ok ⟨[0], [[0]], 0⟩ := by
    have opened : (closedRisk 2).isEmpty = false := rfl
    have known : newton.objective.usesRiskSet = true := rfl
    have pending : (RiskSet.absorbGroup.run (closedRisk 2)).1 = .ok ⟨[0], [[0]], 0⟩ := rfl
    simp [Newton.closedSums, stateOf, opened, known, pending, Vec.add?, Mat.add?, Vec.combine,
      Mat.combine]
  rw [penalized_of rfl rfl closed, zero_add, zero_add]

theorem not_conclude_leaves_apart :
    let examples := [first, death, beyond 4]
    ¬ ∃ last, newton.machine.fold (newton.machine.taken examples none) none = .ok last ∧
      last.map newton.penalized = (newton.machine.leaves examples none).map newton.penalized := by
  rintro examples ⟨last, folded, same⟩
  have begun : (newton.machine.take first).run none =
      (.ok (), some (stateOf (some (riskOf 1 0)) 1)) := by
    refine Update.run_of_exec ?_
    rw [← Machine.take_start started, Update.exec_of_run take_first]
  have taken : newton.machine.taken examples none = [first, death] := by
    rw [Machine.taken_of_ok begun, Machine.taken_of_ok take_death,
      Machine.taken_of_error take_apart]
    rfl
  have left : newton.machine.leaves examples none = some (stateOf (some (closedRisk 2)) 2) := by
    rw [Machine.leaves_of_run begun, Machine.leaves_of_run take_death,
      Machine.leaves_of_run take_apart]
    rfl
  have ended : newton.machine.fold [first, death] none =
      .ok (some (stateOf (some (riskOf 2 1)) 2)) := by
    rw [Machine.fold_cons, Update.exec_of_run begun, ok_bind, Machine.fold_cons,
      Update.exec_of_run take_death]
    rfl
  rw [taken, ended] at folded
  cases folded
  rw [left, Option.map_some, Option.map_some, penalized_open, penalized_closed, Option.some.injEq,
    Except.ok.injEq, Contribution.mk.injEq] at same
  have nothing : Real.log 2 = 0 := add_eq_right.mp same.2.2
  exact (Real.log_pos one_lt_two).ne' nothing

end Capped

end

end Passwise
