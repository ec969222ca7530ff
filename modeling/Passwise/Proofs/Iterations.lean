import Passwise.Run.Fit
import Passwise.Proofs.Findings
import Passwise.Proofs.Steady

set_option autoImplicit false

namespace Passwise

variable {α σ ρ : Type} [Scalar α] {d : Nat}

namespace Run

variable {run : Run α} {source : Source α} {shuffles : Shuffles}

theorem pass_ok (unshuffled : run.Unshuffled) (nonempty : source.examples ≠ [])
    {m : Machine α σ ρ} {holds : Nat → σ → Prop} (tracks : m.Tracks holds) {p q : Progress α}
    {result : Option ρ} (done : (run.pass source shuffles m).run p = (.ok result, q)) :
    ∃ k state, 0 < k ∧ holds k state ∧ m.result state = .ok result := by
  obtain ⟨order, perm, parts⟩ := unshuffled.parts?_eq source shuffles
  unfold pass at done
  rw [parts] at done
  have some : order ≠ [] := fun empty => nonempty (empty ▸ perm).nil_eq.symm
  have ran : m.run run.shape [order] = .ok result := congrArg Prod.fst done
  obtain ⟨state, after, finished⟩ := tracks.run_single some ran
  exact ⟨order.length, state, List.length_pos_iff.mpr some, after, finished⟩

theorem pass_strategy (unshuffled : run.Unshuffled) (nonempty : source.examples ≠ [])
    {s : Strategy α} {carries : Prop} (sound : s.Sound carries)
    (resumable : carries → s.origin.Resumable) {p q : Progress α} {result : Option (Snapshot α)}
    (done : (run.pass source shuffles s.machine).run p = (.ok result, q)) :
    ∃ found, result = some found ∧ found.Fits s.origin.task.dimension := by
  obtain ⟨k, state, positive, reached, finished⟩ := pass_ok unshuffled nonempty sound.tracks done
  exact sound.result positive reached resumable finished

def Resumable (run : Run α) (seed : Option (Snapshot α)) : Prop :=
  run.method = .incremental → (Origin.mk run.task seed).Resumable

theorem bestTrial_ok (unshuffled : run.Unshuffled) (nonempty : source.examples ≠ [])
    {seed : Option (Snapshot α)} (resumable : (Origin.mk run.task seed).Resumable)
    {p q : Progress α} {result : Option (Snapshot α)}
    (done : (run.bestTrial source shuffles seed).run p = (.ok result, q)) :
    ∃ found, result = some found ∧ found.Fits run.task.dimension := by
  obtain ⟨t, snapshots, middle, made, ran, ending⟩ := bestTrial_ran done
  obtain ⟨k, states, positive, reached, finished⟩ :=
    pass_ok unshuffled nonempty t.tracks ran
  have each (i : Incremental α) (member : i ∈ t.trials) : i.origin.Resumable := by
    obtain ⟨size, previous⟩ := Trials.make_ok made i member
    rw [Origin.Resumable, size, previous]
    exact resumable
  obtain ⟨found, rfl, fits⟩ := Trials.result_fits positive reached
    (fun i member => (Trials.make_ok made i member).1) each finished
  rcases ending with ⟨none, -⟩ | ⟨_, _, scored, winner, ⟨⟩, -, chosen, rfl⟩
  · cases none
  · have whole := fits winner (List.mem_of_getElem? chosen)
    exact ⟨_, rfl, whole.dimension, whole.model, whole.memory,
      whole.inverseDiagonal, whole.method⟩

theorem next_fits {s resumed : Snapshot α} {stepsize : Option α} (fits : s.Fits d)
    {p q : Progress α}
    (done : (run.next source shuffles s).run p = (.ok (resumed, stepsize), q)) :
    resumed.Fits d := by
  rcases next_ok done with ⟨-, step, -, stepped⟩ | ⟨-, rfl, -⟩
  · exact fits.advance (lineStep_ok stepped).1
  · exact fits

theorem resumable_some {s : Snapshot α} (fits : s.Fits run.task.dimension) :
    run.Resumable (some s) := by
  rintro _ _ ⟨⟩
  exact fits.memory

variable [DenseSolver α] [DenseSolver.Shaped α]

theorem optimizer_sound {seed : Option (Snapshot α)} {o : Optimizer α}
    (made : run.optimizer seed = .ok o) :
    ∃ (s : Strategy α) (carries : Prop), s.Sound carries ∧
      (carries → run.method = .incremental) ∧ s.origin = ⟨run.task, seed⟩ ∧
      o.machine = s.machine := by
  obtain ⟨method, origin⟩ := optimizer_ok made
  cases o with
  | incremental i => exact ⟨_, _, i.sound, fun _ => method.symm, origin, rfl⟩
  | conjugate c => exact ⟨_, _, c.sound, False.elim, origin, rfl⟩
  | newton n => exact ⟨_, _, n.sound, False.elim, origin, rfl⟩

theorem iteration_ok (unshuffled : run.Unshuffled) (nonempty : source.examples ≠ [])
    {seed : Option (Snapshot α)} (resumable : run.Resumable seed) {p q : Progress α}
    {result : Option (Snapshot α)}
    (done : (run.iteration source shuffles seed).run p = (.ok result, q)) :
    ∃ found, result = some found ∧ found.Fits run.task.dimension := by
  unfold iteration at done
  split_ifs at done with trials
  · exact bestTrial_ok unshuffled nonempty (resumable trials.1) done
  · obtain ⟨o, _, made, done⟩ := Update.run_bind_eq_ok.mp done
    rw [Update.run_ofExcept, Prod.mk.injEq] at made
    obtain ⟨made, rfl⟩ := made
    obtain ⟨s, carries, sound, only, origin, machine⟩ := optimizer_sound made
    rw [machine] at done
    have own (carried : carries) : s.origin.Resumable := origin ▸ resumable (only carried)
    obtain ⟨found, same, fits⟩ := pass_strategy unshuffled nonempty sound own done
    rw [origin] at fits
    exact ⟨found, same, fits⟩

theorem Trace.fits (unshuffled : run.Unshuffled) (nonempty : source.examples ≠ []) {k : Nat}
    {seed baseline : Option (Snapshot α)} {p q : Progress α} {steps : List (Step α)}
    (trace : run.Trace source shuffles k seed baseline p steps q) (resumable : run.Resumable seed) :
    ∀ step ∈ steps, step.resumed.Fits run.task.dimension := by
  induction trace with
  | nil => simp
  | cons finds moves counts records perRow rest ih =>
    obtain ⟨found, same, fits⟩ := iteration_ok unshuffled nonempty resumable finds
    cases same
    have resumed := next_fits fits moves
    intro step member
    rcases List.mem_cons.mp member with rfl | later
    · exact resumed
    · exact ih (resumable_some resumed) step later

end Run

end Passwise
