import Passwise.Proofs.Partition
import Passwise.Proofs.Findings
import Passwise.Proofs.Trace

set_option autoImplicit false

namespace Passwise

section

variable {α : Type} [Scalar α]

theorem Origin.model_of_start {origin : Origin α} {s : Snapshot α} {state : PassState α}
    (previous : origin.previous = some s) (started : origin.start = .ok state) :
    state.model = s.model := by
  unfold start at started
  rw [previous] at started
  dsimp only at started
  split_ifs at started
  cases started
  rfl

theorem Strategy.model_of_start {s : Strategy α} {from_ : Snapshot α} {state : PassState α}
    (previous : s.origin.previous = some from_) (started : s.start = .ok state) :
    state.model = from_.model := by
  obtain ⟨first, begun, started⟩ := bind_eq_ok.mp started
  cases started
  exact (Origin.model_of_start previous begun :)

end

variable {α : Type} [Exact α] {d : Nat}

namespace Snapshot

structure Left (s : Snapshot α) : Prop where
  method : ∃ m : Method, s.method = .text m.name
  taken : s.rows ≠ 0

theorem Left.toCells_ok {s : Snapshot α} (left : s.Left) : ∃ cells, s.toCells = .ok cells := by
  obtain ⟨m, method⟩ := left.method
  have maker : s.maker = .ok m := by
    rw [maker, method]
    dsimp only
    rw [Method.ofName?_name]
    rfl
  simp only [toCells, maker, ok_bind, Exact.row_eq, pure_ok]
  exact ⟨_, rfl⟩

theorem Left.lossPerRow_eq {s : Snapshot α} (left : s.Left) :
    s.lossPerRow = .ok (s.loss / s.rows) := by
  simp [lossPerRow, Exact.ratio_of_ne, left.taken]

def changeFrom (s : Snapshot α) (baseline : Option (Snapshot α)) : Option α :=
  baseline.bind fun old =>
    if old.loss = 0 then none else some (|s.loss - old.loss| / |old.loss|)

theorem changeFrom_nonneg {s : Snapshot α} {baseline : Option (Snapshot α)} {change : α}
    (changed : s.changeFrom baseline = some change) : 0 ≤ change := by
  cases baseline with
  | none => cases changed
  | some old =>
    simp only [changeFrom, Option.bind_some] at changed
    split_ifs at changed
    cases changed
    exact div_nonneg (abs_nonneg _) (abs_nonneg _)

theorem changeFrom_same {s old : Snapshot α} (same : s.loss = old.loss) (some : old.loss ≠ 0) :
    s.changeFrom (.some old) = .some 0 := by
  simp [changeFrom, same, some]

end Snapshot

namespace Origin

def Fitting (origin : Origin α) : Prop :=
  match origin.previous with
  | none => True
  | some s => s.task.dimension = origin.task.dimension ∧ s.task.objective = origin.task.objective ∧
      s.model.length = origin.task.dimension

theorem Fitting.start_of {origin : Origin α} (fitting : origin.Fitting) :
    ∃ w : Fin origin.task.dimension → α,
      origin.start = .ok ⟨origin.task, Vec.of w, origin.memory, .zero, 0⟩ := by
  unfold Fitting at fitting
  unfold memory
  cases previous : origin.previous with
  | none =>
    exact ⟨0, by simp [start, previous]⟩
  | some s =>
    rw [previous] at fitting
    obtain ⟨dimension, objective, model⟩ := fitting
    refine ⟨Vec.entries origin.task.dimension s.model, ?_⟩
    rw [start_previous previous ⟨dimension.symm, objective.symm⟩, Vec.of_entries model]
    rfl

end Origin

theorem Objective.rows_state (o : Objective) (w : Fin d → α) (start : PassState α) (curved : Bool)
    (examples : List (Example α)) :
    (Share.state start curved (examples.map (o.share w)).sum).rows = examples.length := by
  change (examples.map (o.share w)).sum.2.2.2 = _
  induction examples with
  | nil => rfl
  | cons e examples ih =>
    rw [List.map_cons, List.sum_cons, Prod.snd_add, Prod.snd_add, Prod.snd_add, ih]
    simp [share, add_comm]

namespace Strategy

variable {s : Strategy α}

theorem start_of (fitting : s.origin.Fitting) :
    ∃ w : Fin s.origin.task.dimension → α,
      s.start = .ok ⟨s.origin.task, Vec.of w, s.origin.memory, s.totals, 0⟩ := by
  obtain ⟨w, begun⟩ := fitting.start_of
  exact ⟨w, by rw [start, begun]; rfl⟩

theorem Additive.run_of {o : Objective} {curved : Bool} (additive : s.Additive o curved)
    {start : PassState α} (started : s.start = .ok start) {w : Fin s.origin.task.dimension → α}
    (model : start.model = Vec.of w) {examples : List (Example α)} (nonempty : examples ≠ [])
    (alike : ∀ e ∈ examples, e.Alike s.origin.task.dimension false) (shape : Shape)
    {parts : List (List (Example α))} (split : parts.flatten.Perm examples) :
    s.machine.run shape parts =
      some <$> s.finish (Share.state start curved (examples.map (o.share w)).sum) := by
  have all : ∀ e ∈ parts.flatten, e.Alike s.origin.task.dimension false :=
    fun e member => alike e (split.mem_iff.mp member)
  have summing := additive.summing started (model ▸ Vec.length_of w)
  have taken : (Share.state start curved (examples.map (o.share w)).sum).rows ≠ 0 := by
    rw [o.rows_state]
    simpa using nonempty
  rw [model, Vec.entries_of] at summing
  rw [summing.run_eq shape all, Machine.reached_perm split, Machine.reached, if_neg nonempty]
  change s.result _ = _
  rw [result, if_neg taken]
  rfl

end Strategy

variable [Exact.Finite α]

theorem relativeChange_of (s : Snapshot α) (baseline : Option (Snapshot α)) :
    relativeChange (some s) baseline = .ok (s.changeFrom baseline) := by
  cases baseline with
  | none => rfl
  | some old =>
    by_cases zero : old.loss = 0
    · simp [relativeChange, Snapshot.changeFrom, zero]
    · simp [relativeChange, Snapshot.changeFrom, zero]

theorem Progress.record_of_left {s resumed : Snapshot α} (left : s.Left) (kept : resumed.Left)
    (k before : Nat) (stepsize : Option α)
    (baseline : Option (Snapshot α)) (p : Progress α) :
    ∃ q, (record k before s resumed stepsize baseline).run p =
      (.ok (s.changeFrom baseline), q) :=
  record_of (relativeChange_of s baseline) left.lossPerRow_eq fun _ => kept.toCells_ok

namespace Run

structure Plain (run : Run α) (source : Source α) (shuffles : Shuffles) : Prop where
  separable : run.task.objective ≠ .cox
  counted : ∃ count, run.parts = some count ∧ Deals source count shuffles
  survival : source.survival = false
  dimension : source.dimension = run.task.dimension
  nonempty : source.examples ≠ []

variable {run : Run α} {source : Source α} {shuffles : Shuffles}

omit [Exact.Finite α] in
theorem Plain.alike (plain : run.Plain source shuffles) :
    ∀ e ∈ source.examples, e.Alike run.task.dimension false := by
  rw [← plain.dimension, ← plain.survival]
  exact source.uniform

omit [Exact.Finite α] in
theorem Plain.exists_pass (plain : run.Plain source shuffles) {σ ρ : Type} (m : Machine α σ ρ)
    (p : Progress α) :
    ∃ parts q, parts.flatten.Perm source.examples ∧
      (run.pass source shuffles m).run p = (m.run run.shape parts, q) := by
  obtain ⟨count, counted, deals⟩ := plain.counted
  have same : run = run.split count run.shape := by rw [split, ← counted]
  obtain ⟨parts, used, dealt, perm⟩ := run_parts? run.shape
    (Objective.usesRiskSet_eq_false plain.separable) deals { p with passes := p.passes + 1 }
  rw [← same] at dealt
  refine ⟨parts, { p with passes := p.passes + 1, shuffles := used }, perm, ?_⟩
  unfold pass
  rw [Update.run_bind_ok (Update.run_modify _ _), Update.run_bind_ok dealt, Update.run_ofExcept]

variable [DenseSolver α]

omit [Exact.Finite α] in
theorem run_iteration {seed : Option (Snapshot α)} {optimizer : Optimizer α}
    (noTrials : run.method ≠ .incremental) (made : run.optimizer seed = .ok optimizer)
    (p : Progress α) : (run.iteration source shuffles seed).run p =
      (run.pass source shuffles optimizer.machine).run p := by
  rw [iteration, if_neg fun trials => noTrials trials.1, made,
    Update.run_bind_ok (Update.run_ofExcept _ _)]

omit [Exact.Finite α] in
theorem iterate_of_error {k left : Nat} {seed baseline : Option (Snapshot α)}
    {p q : Progress α} {cause : Error}
    (failed : (run.iteration source shuffles seed).run p = (.error cause, q)) :
    (run.iterate source shuffles k seed baseline (left + 1)).run p = (.error cause, q) := by
  rw [iterate, Update.run_bind_ok (Update.run_get p), Update.run_bind_error failed]

theorem iterate_of_found (k left : Nat) {seed : Option (Snapshot α)}
    (baseline : Option (Snapshot α)) {tolerance : α} {p iterated moved : Progress α}
    {found resumed : Snapshot α} {stepsize : Option α}
    (finds : (run.iteration source shuffles seed).run p = (.ok (some found), iterated))
    (moves : (run.next source shuffles found).run iterated = (.ok (resumed, stepsize), moved))
    (before : found.Left) (after : resumed.Left) (given : run.tolerance = some tolerance) :
    ∃ step kept, step.found = found ∧ step.resumed = resumed ∧
      step.change = found.changeFrom baseline ∧
      (∀ steps middle,
        run.Trace source shuffles (k + 1) (some resumed) (some found) kept steps middle →
        run.Trace source shuffles k seed baseline p (step :: steps) middle) ∧
      (run.iterate source shuffles k seed baseline (left + 1)).run p =
        if run.settled step = true then (.ok ⟨.converged, k, some resumed⟩, kept)
        else (run.iterate source shuffles (k + 1) (some resumed) (some found) left).run kept := by
  obtain ⟨kept, records⟩ :=
    Progress.record_of_left before after k p.passes stepsize baseline moved
  let step : Step α := ⟨found, resumed, stepsize, found.changeFrom baseline,
    found.loss / found.rows, moved.passes - p.passes⟩
  refine ⟨step, kept, rfl, rfl, rfl, fun steps middle rest => ?_, ?_⟩
  · exact .cons finds moves rfl records before.lossPerRow_eq rest
  · exact iterate_of_step step finds moves records given

end Run

end Passwise
