import Passwise.Proofs.Trace

set_option autoImplicit false

namespace Passwise

variable {α : Type} [Scalar α]

def Steady {β : Type} (x : Update (Progress α) β) : Prop :=
  ∃ result count, ∀ p, x.run p = (result, { p with passes := p.passes + count })

namespace Steady

variable {β γ : Type}

theorem ofExcept (result : Except Error β) :
    Steady (Update.ofExcept result : Update (Progress α) β) :=
  ⟨result, 0, fun _ => rfl⟩

theorem bind {x : Update (Progress α) β} {f : β → Update (Progress α) γ} (first : Steady x)
    (rest : ∀ b, Steady (f b)) : Steady (x >>= f) := by
  obtain ⟨result, count, runs⟩ := first
  cases result with
  | error cause =>
    exact ⟨.error cause, count, fun p => Update.run_bind_error (runs p) f⟩
  | ok b =>
    obtain ⟨final, more, after⟩ := rest b
    refine ⟨final, count + more, fun p => ?_⟩
    rw [Update.run_bind_ok (runs p), after, Nat.add_assoc]

theorem closed : Update.Closed fun (β : Type) (x : Update (Progress α) β) => Steady x :=
  ⟨ofExcept, bind⟩

theorem again {x : Update (Progress α) β} (steady : Steady x) {result : Except Error β}
    {p q : Progress α} (done : x.run p = (result, q)) :
    ∃ count, q = { p with passes := p.passes + count } ∧
      ∀ p', x.run p' = (result, { p' with passes := p'.passes + count }) := by
  obtain ⟨same, count, runs⟩ := steady
  rw [runs p] at done
  cases done
  exact ⟨count, rfl, runs⟩

end Steady

namespace Run

def Unshuffled (run : Run α) : Prop := run.parts = some 1 ∨ run.task.objective = .cox

variable {run : Run α} {source : Source α} {shuffles : Shuffles}

theorem Unshuffled.parts?_eq (unshuffled : run.Unshuffled) (source : Source α)
    (shuffles : Shuffles) :
    ∃ order, order.Perm source.examples ∧ run.parts? source shuffles = pure [order] := by
  unfold parts?
  split_ifs with risk whole
  · exact ⟨source.byDescendingTime, List.mergeSort_perm _ _, rfl⟩
  · exact ⟨source.examples, .refl _, rfl⟩
  · rcases unshuffled with one | cox
    · exact absurd one whole
    · simp [cox, Objective.usesRiskSet] at risk

theorem pass_steady (unshuffled : run.Unshuffled) {σ ρ : Type} (m : Machine α σ ρ) :
    Steady (run.pass source shuffles m) := by
  obtain ⟨order, _, parts⟩ := unshuffled.parts?_eq source shuffles
  unfold pass
  rw [parts]
  exact ⟨m.run run.shape [order], 1, fun p => rfl⟩

theorem next_steady (unshuffled : run.Unshuffled) (s : Snapshot α) :
    Steady (run.next source shuffles s) :=
  next_of_pass Steady.closed (pass_steady unshuffled) s

variable [DenseSolver α]

theorem iteration_steady (unshuffled : run.Unshuffled) (previous : Option (Snapshot α)) :
    Steady (run.iteration source shuffles previous) :=
  iteration_of_pass Steady.closed (pass_steady unshuffled) previous

namespace Trace

variable {k : Nat} {seed baseline : Option (Snapshot α)} {p q : Progress α}

-- The first step of a fit compares its loss with none, and so may show another change.
theorem cons_again (unshuffled : run.Unshuffled) {step : Step α} {steps : List (Step α)}
    (trace : run.Trace source shuffles k seed baseline p (step :: steps) q)
    {seed' baseline' : Option (Snapshot α)}
    (same : run.iteration source shuffles seed' = run.iteration source shuffles seed)
    {change : Option α} (changed : relativeChange (some step.found) baseline' = .ok change)
    {p' : Progress α} (durable : p'.store.durable = p.store.durable) (k' : Nat) :
    ∃ kept kept', kept'.store.durable = kept.store.durable ∧
      run.Trace source shuffles (k + 1) (some step.resumed) (some step.found) kept steps q ∧
      ∀ q',
        run.Trace source shuffles (k' + 1) (some step.resumed) (some step.found) kept' steps q' →
        run.Trace source shuffles k' seed' baseline' p' ({ step with change := change } :: steps)
          q' := by
  cases trace with
  | cons finds moves counts records perRow rest =>
    obtain ⟨i, rfl, found⟩ := (iteration_steady unshuffled seed).again finds
    obtain ⟨j, rfl, moved⟩ := (next_steady unshuffled step.found).again moves
    obtain ⟨_, _, laidOut, _⟩ := Progress.record_ok records
    obtain ⟨kept', recorded⟩ : ∃ kept', (Progress.record k' p'.passes step.found step.resumed
        step.stepsize baseline').run { p' with passes := p'.passes + i + j } =
          (.ok change, kept') :=
      Progress.record_of changed perRow fun stored => laidOut (durable.symm.trans stored)
    refine ⟨_, kept', ?_, rest, fun q' rest' => ?_⟩
    · rw [store_eq finds moves records, (Progress.record_ok recorded).2.1]
      simpa using durable
    · refine .cons (by rw [same]; exact found p') (moved _) ?_ recorded perRow rest'
      change step.passes = p'.passes + i + j - p'.passes
      rw [counts]
      dsimp only
      omega

theorem again (unshuffled : run.Unshuffled) {steps : List (Step α)}
    (trace : run.Trace source shuffles k seed baseline p steps q) {p' : Progress α}
    (durable : p'.store.durable = p.store.durable) (k' : Nat) :
    ∃ q', run.Trace source shuffles k' seed baseline p' steps q' := by
  induction steps generalizing k seed baseline p p' k' with
  | nil => exact ⟨p', .nil _ _ _ _⟩
  | cons step steps ih =>
    have changed : relativeChange (some step.found) baseline = .ok step.change := by
      cases trace with
      | cons finds moves counts records perRow rest => exact (Progress.record_ok records).1
    obtain ⟨kept, kept', stored, rest, whole⟩ :=
      trace.cons_again unshuffled rfl changed durable k'
    obtain ⟨q', later⟩ := ih rest stored (k' + 1)
    exact ⟨q', whole q' later⟩

theorem restart (unshuffled : run.Unshuffled) {step : Step α} {steps : List (Step α)}
    (trace : run.Trace source shuffles k seed baseline p (step :: steps) q)
    {seed' : Option (Snapshot α)}
    (same : run.iteration source shuffles seed' = run.iteration source shuffles seed)
    {p' : Progress α} (durable : p'.store.durable = p.store.durable) (k' : Nat) :
    ∃ q',
      run.Trace source shuffles k' seed' none p' ({ step with change := none } :: steps) q' := by
  obtain ⟨kept, kept', stored, rest, whole⟩ :=
    trace.cons_again unshuffled same (rfl : relativeChange (some step.found) none = .ok none)
      durable k'
  obtain ⟨q', later⟩ := rest.again unshuffled stored (k' + 1)
  exact ⟨q', whole q' later⟩

end Trace

end Run

end Passwise
