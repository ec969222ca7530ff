import Passwise.Run.Fit
import Passwise.Proofs.Recording

set_option autoImplicit false

namespace Passwise

variable {α : Type} [Scalar α]

namespace Run

variable [DenseSolver α] (run : Run α) (source : Source α) (shuffles : Shuffles)

inductive Trace : Nat → Option (Snapshot α) → Option (Snapshot α) → Progress α →
    List (Step α) → Progress α → Prop
  | nil (k : Nat) (seed baseline : Option (Snapshot α)) (p : Progress α) :
      Trace k seed baseline p [] p
  | cons {k : Nat} {seed baseline : Option (Snapshot α)} {p iterated moved kept q : Progress α}
      {step : Step α} {steps : List (Step α)}
      (finds : (run.iteration source shuffles seed).run p = (.ok (some step.found), iterated))
      (moves : (run.next source shuffles step.found).run iterated =
        (.ok (step.resumed, step.stepsize), moved))
      (counts : step.passes = moved.passes - p.passes)
      (records : (Progress.record k p.passes step.found step.resumed step.stepsize baseline).run
        moved = (.ok step.change, kept))
      (perRow : step.found.lossPerRow = .ok step.lossPerRow)
      (rest : Trace (k + 1) (some step.resumed) (some step.found) kept steps q) :
      Trace k seed baseline p (step :: steps) q

def settled (step : Step α) : Bool :=
  run.tolerance.any fun tolerance => step.change.any fun change => decide (change < tolerance)

inductive Ends (left : Nat) (seed : Option (Snapshot α)) (steps : List (Step α))
    (middle q : Progress α) : Reason → Prop
  | maxIterations (used : steps.length = left) (same : q = middle)
      (unsettled : ∀ step ∈ steps, run.settled step = false) :
      Ends left seed steps middle q .maxIterations
  | converged (last : Step α) (reached : steps.getLast? = some last) (same : q = middle)
      (unsettled : ∀ step ∈ steps.dropLast, run.settled step = false)
      (stops : run.settled last = true) : Ends left seed steps middle q .converged
  | noData (fewer : steps.length < left)
      (empty :
        (run.iteration source shuffles (Step.seedAfter seed steps)).run middle = (.ok none, q))
      (unsettled : ∀ step ∈ steps, run.settled step = false) :
      Ends left seed steps middle q .noData

variable {run source shuffles}

theorem Ends.cons {left : Nat} {seed : Option (Snapshot α)} {step : Step α} {steps : List (Step α)}
    {middle q : Progress α} {reason : Reason} (unsettled : run.settled step = false)
    (ends : run.Ends source shuffles left (some step.resumed) steps middle q reason) :
    run.Ends source shuffles (left + 1) seed (step :: steps) middle q reason := by
  cases ends with
  | maxIterations used same later =>
    exact .maxIterations (by simp [used]) same (by simpa [unsettled] using later)
  | converged last reached same later stops =>
    obtain ⟨front, rfl⟩ := List.getLast?_eq_some_iff.mp reached
    rw [List.dropLast_concat] at later
    refine .converged last (by rw [← List.cons_append, List.getLast?_concat]) same ?_ stops
    rw [← List.cons_append, List.dropLast_concat]
    simpa [unsettled] using later
  | noData fewer empty later =>
    exact .noData (by simpa using fewer) empty (by simpa [unsettled] using later)

omit [DenseSolver α] in
theorem tolerance_known {p q : Progress α} {tolerance : α}
    (known : (Update.ofExcept (run.tolerance.elim (.error .wrongType) .ok)).run p =
      (.ok tolerance, q)) : run.tolerance = some tolerance ∧ q = p := by
  rw [Update.run_ofExcept, Prod.mk.injEq] at known
  obtain ⟨known, rfl⟩ := known
  cases given : run.tolerance with
  | none =>
    rw [given] at known
    cases known
  | some t =>
    rw [given] at known
    cases known
    exact ⟨rfl, rfl⟩

omit [DenseSolver α] in
theorem optimizer_ok {seed : Option (Snapshot α)} {o : Optimizer α}
    (made : run.optimizer seed = .ok o) : o.method = run.method ∧ o.origin = ⟨run.task, seed⟩ := by
  unfold optimizer at made
  split at made
  · rename_i method
    obtain ⟨i, given, made⟩ := bind_eq_ok.mp made
    cases made
    change Incremental.ofOrigin ⟨run.task, seed⟩ = .ok i at given
    unfold Incremental.ofOrigin at given
    split_ifs at given
    cases given
    exact ⟨method.symm, rfl⟩
  · rename_i method
    obtain ⟨c, given, made⟩ := bind_eq_ok.mp made
    cases made
    change Conjugate.ofOrigin ⟨run.task, seed⟩ run.beta = .ok c at given
    unfold Conjugate.ofOrigin at given
    split_ifs at given
    cases given
    exact ⟨method.symm, rfl⟩
  · rename_i method
    obtain ⟨n, given, made⟩ := bind_eq_ok.mp made
    cases made
    change Newton.ofOrigin ⟨run.task, seed⟩ run.sizeBound run.conditionBound = .ok n at given
    unfold Newton.ofOrigin at given
    dsimp only at given
    split_ifs at given
    cases given
    exact ⟨method.symm, rfl⟩

omit [DenseSolver α] in
theorem bestTrial_ran {seed result : Option (Snapshot α)} {p q : Progress α}
    (done : (run.bestTrial source shuffles seed).run p = (.ok result, q)) :
    ∃ t snapshots middle, Trials.make run.task run.stepsizes seed = .ok t ∧
      (run.pass source shuffles t.machine).run p = (.ok snapshots, middle) ∧
      ((snapshots = none ∧ result = none ∧ q = middle) ∨
        ∃ found search scored winner, snapshots = some found ∧
          (run.pass source shuffles (Search.machine search)).run middle = (.ok (some scored), q) ∧
          found[scored.index]? = some winner ∧
          result = some { winner with loss := scored.loss }) := by
  unfold bestTrial at done
  obtain ⟨t, _, made, done⟩ := Update.run_bind_eq_ok.mp done
  rw [Update.run_ofExcept, Prod.mk.injEq] at made
  obtain ⟨made, rfl⟩ := made
  obtain ⟨snapshots, middle, ran, done⟩ := Update.run_bind_eq_ok.mp done
  refine ⟨t, snapshots, middle, made, ran, ?_⟩
  cases snapshots with
  | none =>
    cases done
    exact .inl ⟨rfl, rfl, rfl⟩
  | some found =>
    obtain ⟨search, _, searching, done⟩ := Update.run_bind_eq_ok.mp done
    rw [Update.run_ofExcept, Prod.mk.injEq] at searching
    obtain ⟨-, rfl⟩ := searching
    obtain ⟨scored, _, scoring, done⟩ := Update.run_bind_eq_ok.mp done
    cases scored with
    | none => cases done
    | some scored =>
      rcases chosen : found[scored.index]? with _ | winner
      · simp only [chosen] at done
        cases done
      · simp only [chosen] at done
        cases done
        exact .inr ⟨found, search, scored, winner, rfl, scoring, chosen, rfl⟩

omit [DenseSolver α] in
theorem lineStep_ok {s moved : Snapshot α} {stepsize : α} {p q : Progress α}
    (done : (run.lineStep source shuffles s).run p = (.ok (moved, stepsize), q)) :
    s.advance stepsize = .ok moved ∧
    ((run.lineSearch = .fixed ∧ stepsize = run.task.stepsize ∧ q = p) ∨
      (run.lineSearch = .bestBall ∧ ∃ direction search winner,
        s.memory.direction = some direction ∧
        Search.alongDirection s.task s.model direction run.stepsizes = .ok search ∧
        (run.pass source shuffles search.machine).run p = (.ok (some winner), q) ∧
        winner.stepsize = some stepsize)) := by
  unfold lineStep at done
  split at done
  · rename_i fixed
    obtain ⟨_, _, advanced, done⟩ := Update.run_bind_eq_ok.mp done
    rw [Update.run_ofExcept, Prod.mk.injEq] at advanced
    obtain ⟨advanced, rfl⟩ := advanced
    cases done
    exact ⟨advanced, .inl ⟨fixed, rfl, rfl⟩⟩
  · rename_i best
    obtain ⟨direction, _, directed, done⟩ := Update.run_bind_eq_ok.mp done
    obtain ⟨search, _, made, done⟩ := Update.run_bind_eq_ok.mp done
    obtain ⟨scored, _, passed, done⟩ := Update.run_bind_eq_ok.mp done
    rw [Update.run_ofExcept, Prod.mk.injEq] at directed made
    obtain ⟨directed, rfl⟩ := directed
    obtain ⟨made, rfl⟩ := made
    have known : s.memory.direction = some direction := by
      cases given : s.memory.direction with
      | none =>
        rw [given] at directed
        cases directed
      | some v =>
        rw [given] at directed
        cases directed
        rfl
    cases scored with
    | none => cases done
    | some winner =>
      dsimp only [Option.bind] at done
      cases chosen : winner.stepsize with
      | none =>
        rw [chosen] at done
        cases done
      | some step =>
        rw [chosen] at done
        obtain ⟨_, _, advanced, done⟩ := Update.run_bind_eq_ok.mp done
        rw [Update.run_ofExcept, Prod.mk.injEq] at advanced
        obtain ⟨advanced, rfl⟩ := advanced
        cases done
        exact ⟨advanced, .inr ⟨best, direction, search, winner, known, made, passed, chosen⟩⟩

omit [DenseSolver α] in
theorem next_ok {s resumed : Snapshot α} {stepsize : Option α} {p q : Progress α}
    (done : (run.next source shuffles s).run p = (.ok (resumed, stepsize), q)) :
    (run.method = .conjugate ∧ ∃ step, stepsize = some step ∧
      (run.lineStep source shuffles s).run p = (.ok (resumed, step), q)) ∨
    (run.method ≠ .conjugate ∧ resumed = s ∧ stepsize = none ∧ q = p) := by
  unfold next at done
  split_ifs at done with conjugate
  · obtain ⟨⟨moved, step⟩, _, stepped, done⟩ := Update.run_bind_eq_ok.mp done
    cases done
    exact .inl ⟨conjugate, step, rfl, stepped⟩
  · cases done
    exact .inr ⟨conjugate, rfl, rfl, rfl⟩

theorem iterate_succ_ok {left k : Nat} {seed baseline : Option (Snapshot α)} {p q : Progress α}
    {o : Outcome α}
    (returned : (run.iterate source shuffles k seed baseline (left + 1)).run p = (.ok o, q)) :
    ((run.iteration source shuffles seed).run p = (.ok none, q) ∧ o = ⟨.noData, k - 1, seed⟩) ∨
    ∃ step kept,
      (∀ steps middle,
        run.Trace source shuffles (k + 1) (some step.resumed) (some step.found) kept steps middle →
        run.Trace source shuffles k seed baseline p (step :: steps) middle) ∧
      ((run.settled step = true ∧ o = ⟨.converged, k, some step.resumed⟩ ∧ q = kept) ∨
        (run.settled step = false ∧
          (run.iterate source shuffles (k + 1) (some step.resumed) (some step.found) left).run
            kept = (.ok o, q))) := by
  unfold iterate at returned
  obtain ⟨_, _, here, afterGet⟩ := Update.run_bind_eq_ok.mp returned
  cases here
  obtain ⟨found, iterated, finds, afterFind⟩ := Update.run_bind_eq_ok.mp afterGet
  cases found with
  | none =>
    cases afterFind
    exact .inl ⟨finds, rfl⟩
  | some s =>
    obtain ⟨⟨resumed, stepsize⟩, moved, moves, afterMove⟩ := Update.run_bind_eq_ok.mp afterFind
    obtain ⟨change, kept, records, afterRecord⟩ := Update.run_bind_eq_ok.mp afterMove
    obtain ⟨tolerance, _, known, ending⟩ := Update.run_bind_eq_ok.mp afterRecord
    obtain ⟨_, _, _, perRow, ratio, _⟩ := Progress.record_ok records
    obtain ⟨given, rfl⟩ := tolerance_known known
    let step : Step α := ⟨s, resumed, stepsize, change, perRow, moved.passes - p.passes⟩
    have stops : run.settled step = change.any fun change => decide (change < tolerance) := by
      simp [settled, given, step]
    refine .inr ⟨step, _, fun steps middle rest => .cons finds moves rfl records ratio rest, ?_⟩
    rw [← stops] at ending
    cases settled : run.settled step with
    | true =>
      rw [settled, if_pos rfl] at ending
      cases ending
      exact .inl ⟨rfl, rfl, rfl⟩
    | false =>
      rw [settled, if_neg Bool.false_ne_true] at ending
      exact .inr ⟨rfl, ending⟩

theorem iterate_ok {left k : Nat} {seed baseline : Option (Snapshot α)} {p q : Progress α}
    {o : Outcome α}
    (returned : (run.iterate source shuffles k seed baseline left).run p = (.ok o, q)) :
    ∃ steps middle, run.Trace source shuffles k seed baseline p steps middle ∧
      o.iterations = k + steps.length - 1 ∧ o.snapshot = Step.seedAfter seed steps ∧
      run.Ends source shuffles left seed steps middle q o.reason := by
  -- On the iterations left; each step is put in front of those of the rest.
  induction left generalizing k seed baseline p with
  | zero =>
    cases returned
    exact ⟨[], q, .nil _ _ _ _, rfl, rfl, .maxIterations rfl rfl (by simp)⟩
  | succ left ih =>
    rcases iterate_succ_ok returned with ⟨finds, rfl⟩ | ⟨step, kept, one, ending⟩
    · exact ⟨[], p, .nil _ _ _ _, rfl, rfl, .noData (by simp) finds (by simp)⟩
    · rcases ending with ⟨settled, rfl, rfl⟩ | ⟨unsettled, returned⟩
      · exact ⟨[step], _, one [] _ (.nil _ _ _ _), rfl, rfl,
          .converged step rfl rfl (by simp) settled⟩
      · obtain ⟨steps, middle, trace, iterations, snapshot, ends⟩ := ih returned
        refine ⟨step :: steps, middle, one steps middle trace, ?_, snapshot, ends.cons unsettled⟩
        rw [iterations, List.length_cons]
        omega

theorem iterate_of_step {left k : Nat} {seed baseline : Option (Snapshot α)}
    {p iterated moved kept : Progress α} (step : Step α)
    (finds : (run.iteration source shuffles seed).run p = (.ok (some step.found), iterated))
    (moves : (run.next source shuffles step.found).run iterated =
      (.ok (step.resumed, step.stepsize), moved))
    (records : (Progress.record k p.passes step.found step.resumed step.stepsize baseline).run
      moved = (.ok step.change, kept))
    {tolerance : α} (given : run.tolerance = some tolerance) :
    (run.iterate source shuffles k seed baseline (left + 1)).run p =
      if run.settled step = true then (.ok ⟨.converged, k, some step.resumed⟩, kept)
      else (run.iterate source shuffles (k + 1) (some step.resumed) (some step.found) left).run
        kept := by
  have known : (Update.ofExcept (run.tolerance.elim (.error .wrongType) .ok)).run kept =
      (.ok tolerance, kept) := by
    rw [given]
    rfl
  have stops : run.settled step = step.change.any fun change => decide (change < tolerance) := by
    simp [settled, given]
  rw [iterate, Update.run_bind_ok (Update.run_get p), Update.run_bind_ok finds]
  dsimp only
  rw [Update.run_bind_ok moves]
  dsimp only
  rw [Update.run_bind_ok records, Update.run_bind_ok known, ← stops]
  split_ifs
  · rfl
  · rfl

theorem iterate_of_trace {k : Nat} {seed baseline : Option (Snapshot α)} {p q : Progress α}
    {steps : List (Step α)} (trace : run.Trace source shuffles k seed baseline p steps q)
    {tolerance : α} (given : run.tolerance = some tolerance)
    (unsettled : ∀ step ∈ steps, run.settled step = false) :
    (run.iterate source shuffles k seed baseline steps.length).run p =
      (.ok ⟨.maxIterations, k + steps.length - 1, Step.seedAfter seed steps⟩, q) := by
  induction trace with
  | nil => rfl
  | cons finds moves counts records perRow rest ih =>
    rename_i k _ _ p _ moved kept _ step steps
    rw [List.length_cons, iterate_of_step _ finds moves records given, unsettled step (by simp),
      if_neg Bool.false_ne_true, ih fun later member => unsettled later (by simp [member]),
      Nat.add_right_comm k]
    rfl

end Run

namespace Run

variable {run : Run α} {source : Source α} {shuffles : Shuffles}
  {P : (β : Type) → Update (Progress α) β → Prop}

theorem bestTrial_of_pass (closed : Update.Closed P)
    (pass : ∀ {σ ρ : Type} (m : Machine α σ ρ), P _ (run.pass source shuffles m))
    (previous : Option (Snapshot α)) : P _ (run.bestTrial source shuffles previous) := by
  refine closed.bind (closed.ofExcept _) fun trials => closed.bind (pass _) fun snapshots => ?_
  split
  · exact closed.pure _
  · refine closed.bind (closed.ofExcept _) fun search => closed.bind (pass _) fun scored => ?_
    split
    · exact closed.throw _
    · split
      · exact closed.throw _
      · exact closed.pure _

theorem lineStep_of_pass (closed : Update.Closed P)
    (pass : ∀ {σ ρ : Type} (m : Machine α σ ρ), P _ (run.pass source shuffles m))
    (s : Snapshot α) : P _ (run.lineStep source shuffles s) := by
  unfold lineStep
  split
  · exact closed.bind (closed.ofExcept _) fun _ => closed.pure _
  · refine closed.bind (closed.ofExcept _) fun _ => closed.bind (closed.ofExcept _) fun _ => ?_
    refine closed.bind (pass _) fun _ => ?_
    split
    · exact closed.throw _
    · exact closed.bind (closed.ofExcept _) fun _ => closed.pure _

theorem next_of_pass (closed : Update.Closed P)
    (pass : ∀ {σ ρ : Type} (m : Machine α σ ρ), P _ (run.pass source shuffles m))
    (s : Snapshot α) : P _ (run.next source shuffles s) := by
  unfold next
  split_ifs
  · exact closed.bind (lineStep_of_pass closed pass s) fun _ => closed.pure _
  · exact closed.pure _

theorem iteration_of_pass [DenseSolver α] (closed : Update.Closed P)
    (pass : ∀ {σ ρ : Type} (m : Machine α σ ρ), P _ (run.pass source shuffles m))
    (previous : Option (Snapshot α)) : P _ (run.iteration source shuffles previous) := by
  unfold iteration
  split_ifs
  · exact bestTrial_of_pass closed pass previous
  · exact closed.bind (closed.ofExcept _) fun _ => pass _

end Run

-- What a fit shows of its progress: passes and shuffles are counted on the way.
abbrev Progress.shown (p : Progress α) : Store α × Directory α × List (Entry α) :=
  (p.store, p.directory, p.log)

namespace Run

open Update (Keeps)

variable {run : Run α} {source : Source α} {shuffles : Shuffles}

theorem pass_keeps {σ ρ : Type} (m : Machine α σ ρ) :
    Keeps Progress.shown (run.pass source shuffles m) := by
  have parts : Keeps Progress.shown (run.parts? source shuffles) := by
    unfold parts?
    split_ifs
    · exact .pure _
    · exact .pure _
    · refine .bind .get fun _ => .bind (.modify fun _ => rfl) fun _ => ?_
      split
      · exact .ofExcept _
      · exact .throw _
  exact .bind (.modify fun _ => rfl) fun _ => .bind parts fun _ => .ofExcept _

theorem next_keeps (s : Snapshot α) : Keeps Progress.shown (run.next source shuffles s) :=
  next_of_pass (Keeps.closed _) pass_keeps s

variable [DenseSolver α]

theorem iteration_keeps (previous : Option (Snapshot α)) :
    Keeps Progress.shown (run.iteration source shuffles previous) :=
  iteration_of_pass (Keeps.closed _) pass_keeps previous

namespace Trace

variable {k : Nat} {seed baseline : Option (Snapshot α)} {p q : Progress α} {steps : List (Step α)}

theorem log_eq (trace : run.Trace source shuffles k seed baseline p steps q) :
    q.log = p.log ++ Step.entries k steps := by
  induction trace with
  | nil => simp [Step.entries]
  | cons finds moves counts records perRow rest ih =>
    have shown := ((next_keeps _).of_run moves).trans ((iteration_keeps _).of_run finds)
    obtain ⟨_, _, logged⟩ : _ ∧ _ ∧ _ := by simpa using shown
    obtain ⟨_, _, _, ratio, same, appended⟩ := Progress.record_ok records
    cases perRow.symm.trans same
    rw [ih, appended, logged, Step.entries, ← counts, List.append_assoc]
    rfl

theorem store_eq {p iterated moved kept : Progress α} {step : Step α}
    (finds : (run.iteration source shuffles seed).run p = (.ok (some step.found), iterated))
    (moves : (run.next source shuffles step.found).run iterated =
      (.ok (step.resumed, step.stepsize), moved))
    (records : (Progress.record k p.passes step.found step.resumed step.stepsize baseline).run
      moved = (.ok step.change, kept)) : kept.store = p.store.keep k (some step.resumed) := by
  have shown := ((next_keeps _).of_run moves).trans ((iteration_keeps _).of_run finds)
  obtain ⟨stored, _⟩ : _ ∧ _ ∧ _ := by simpa using shown
  rw [(Progress.record_ok records).2.1, stored]

theorem durable_eq (trace : run.Trace source shuffles k seed baseline p steps q) :
    q.store.durable = p.store.durable := by
  induction trace with
  | nil => rfl
  | cons finds moves counts records perRow rest ih =>
    rw [ih, store_eq finds moves records, Store.durable_keep]

theorem lookup_before (trace : run.Trace source shuffles k seed baseline p steps q) {i : Int}
    (earlier : i < k) : q.store.kept.lookup i = p.store.kept.lookup i := by
  induction trace with
  | nil => rfl
  | cons finds moves counts records perRow rest ih =>
    rw [ih (by omega), store_eq finds moves records, Store.lookup_keep_of_ne _ (by omega)]

theorem lookup_eq (trace : run.Trace source shuffles k seed baseline p steps q) {j : Nat}
    {step : Step α} (made : steps[j]? = some step) :
    q.store.kept.lookup ((k + j : Nat) : Int) = some (some step.resumed) := by
  induction trace generalizing j with
  | nil => simp at made
  | cons finds moves counts records perRow rest ih =>
    cases j with
    | zero =>
      cases made
      rw [Nat.add_zero, rest.lookup_before (by omega), store_eq finds moves records,
        Store.lookup_keep_self]
    | succ j =>
      rw [← ih made]
      congr 2
      omega

theorem append {xs ys : List (Step α)}
    (trace : run.Trace source shuffles k seed baseline p (xs ++ ys) q) :
    ∃ middle, run.Trace source shuffles k seed baseline p xs middle ∧
      run.Trace source shuffles (k + xs.length) (Step.seedAfter seed xs)
        (Step.baselineAfter baseline xs) middle ys q := by
  induction xs generalizing k seed baseline p with
  | nil => exact ⟨p, .nil _ _ _ _, trace⟩
  | cons x xs ih =>
    cases trace with
    | cons finds moves counts records perRow rest =>
      obtain ⟨middle, front, back⟩ := ih rest
      refine ⟨middle, .cons finds moves counts records perRow front, ?_⟩
      rwa [List.length_cons, ← Nat.add_assoc, Nat.add_right_comm]

end Trace

end Run

end Passwise
