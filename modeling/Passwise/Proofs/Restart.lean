import Passwise.Proofs.Iterations
import Passwise.Proofs.Layout
import Passwise.Proofs.Resume

set_option autoImplicit false

namespace Passwise

namespace Step

variable {α : Type} [Scalar α]

def afresh : List (Step α) → List (Step α)
  | [] => []
  | step :: rest => { step with change := none } :: rest

@[simp] theorem length_afresh (steps : List (Step α)) : (afresh steps).length = steps.length := by
  cases steps <;> rfl

theorem getElem?_afresh (steps : List (Step α)) (k : Nat) : (afresh steps)[k]? =
    steps[k]?.map fun step => { step with change := if k = 0 then none else step.change } := by
  cases steps with
  | nil => rfl
  | cons step rest =>
    cases k with
    | zero => rfl
    | succ k => simp [afresh]

end Step

namespace Run

variable {α : Type} [Scalar α]

def withIterations (run : Run α) (n : Nat) : Run α := { run with maxIterations := n }

theorem fit_withIterations [DenseSolver α] (run : Run α) (source : Source α) (shuffles : Shuffles)
    (previous : Option (Snapshot α)) (n : Nat) :
    (run.withIterations n).fit source shuffles previous =
      run.iterate source shuffles 1 previous none n := by
  have same (k : Nat) (seed baseline : Option (Snapshot α)) (left : Nat) :
      (run.withIterations n).iterate source shuffles k seed baseline left =
        run.iterate source shuffles k seed baseline left := by
    induction left generalizing k seed baseline with
    | zero => rfl
    | succ left ih =>
      unfold iterate
      simp only [ih]
      rfl
  exact same 1 previous none n

structure Continues (n k : Nat) (whole resumed : Progress α) : Prop where
  stored : ∃ s, whole.store.find? (.ofInt (n + k : Nat)) = some (some s) ∧
    resumed.store.find? (.ofInt k) = some (some s)
  logged : ∃ e, whole.log[n + k - 1]? = some e ∧ resumed.log[k - 1]? =
    some { e with iteration := k, change := if k = 1 then none else e.change }

def Restarts [DenseSolver Float] (run : Run Float) (source : Source Float) (shuffles : Shuffles)
    (durable : Bool) (previous : Option (Snapshot Float)) (n m : Nat) : Prop :=
  ∀ whole p, ((run.withIterations (n + m)).fit source shuffles previous).run (.fresh durable) =
      (.ok whole, p) →
    ∃ first p₁ s, ((run.withIterations n).fit source shuffles previous).run (.fresh durable) =
        (.ok first, p₁) ∧ first.snapshot = some s ∧
      (IsWhole s.rows → IsWhole s.memory.iteration →
        ∃ cells s' resumed p₂, s.toCells = .ok cells ∧ Snapshot.ofCells cells = .ok s' ∧
          ((run.withIterations m).fit source shuffles (some s')).run (.fresh durable) =
            (.ok resumed, p₂) ∧
          ∀ k, 1 ≤ k → k ≤ m → Continues n k p p₂)

end Run

theorem relativeChange_not_lt_zero {new old : Option (Snapshot Float)} {change : Float}
    (made : relativeChange new old = .ok (some change)) : ¬ change < 0 := by
  rcases new with _ | new
  · cases made
  rcases old with _ | old
  · cases made
  unfold relativeChange at made
  dsimp only at made
  obtain ⟨_, _, made⟩ := bind_eq_ok.mp made
  obtain ⟨_, _, made⟩ := bind_eq_ok.mp made
  cases zero : old.loss == 0 with
  | true =>
    rw [zero] at made
    cases made
  | false =>
    rw [zero] at made
    cases made
    exact Double.not_ratio_lt_zero _ zero

namespace Run

variable [DenseSolver Float] {run : Run Float} {source : Source Float} {shuffles : Shuffles}

theorem Trace.unsettled {k : Nat} {seed baseline : Option (Snapshot Float)} {p q : Progress Float}
    {steps : List (Step Float)} (trace : run.Trace source shuffles k seed baseline p steps q)
    (strict : run.tolerance = some 0) : ∀ step ∈ steps, run.settled step = false := by
  induction trace with
  | nil => simp
  | @cons _ _ _ _ _ _ _ _ first _ finds moves counts records perRow rest ih =>
    intro step member
    rcases List.mem_cons.mp member with rfl | later
    · have changed := (Progress.record_ok records).1
      rcases known : step.change with _ | change
      · simp [settled, strict, known]
      · rw [known] at changed
        have above := relativeChange_not_lt_zero changed
        simp only [settled, strict, known, Option.any_some, decide_eq_false_iff_not]
        exact above
    · exact ih step later

theorem steps_of_returned [DenseSolver.Shaped Float] {previous : Option (Snapshot Float)} {n : Nat}
    {durable : Bool} (strict : run.tolerance = some 0) (unshuffled : run.Unshuffled)
    (nonempty : source.examples ≠ []) (resumable : run.Resumable previous) {o : Outcome Float}
    {p : Progress Float}
    (returned : (run.iterate source shuffles 1 previous none n).run (.fresh durable) =
      (.ok o, p)) :
    ∃ steps, steps.length = n ∧
      run.Trace source shuffles 1 previous none (.fresh durable) steps p := by
  obtain ⟨steps, middle, trace, _, _, ends⟩ := iterate_ok returned
  have unsettled := trace.unsettled strict
  generalize o.reason = reason at ends
  cases ends with
  | maxIterations used same => exact ⟨steps, used, same ▸ trace⟩
  | converged last reached same earlier stops =>
    have moving := unsettled last (List.mem_of_getLast? reached)
    rw [stops] at moving
    cases moving
  | noData fewer empty =>
    have later : run.Resumable (Step.seedAfter previous steps) := by
      rcases List.eq_nil_or_concat steps with rfl | ⟨front, last, rfl⟩
      · exact resumable
      · rw [List.concat_eq_append, Step.seedAfter_snoc]
        exact resumable_some (trace.fits unshuffled nonempty resumable last (by simp))
    obtain ⟨found, same, _⟩ := iteration_ok unshuffled nonempty later empty
    cases same

theorem restart_afresh (unshuffled : run.Unshuffled) {k : Nat}
    {seed seed' baseline : Option (Snapshot Float)} {p p' q : Progress Float}
    {steps : List (Step Float)} (trace : run.Trace source shuffles k seed baseline p steps q)
    (same : run.iteration source shuffles seed' = run.iteration source shuffles seed)
    (durable : p'.store.durable = p.store.durable) :
    ∃ q', run.Trace source shuffles 1 seed' none p' (Step.afresh steps) q' := by
  cases steps with
  | nil => exact ⟨p', .nil _ _ _ _⟩
  | cons step steps => exact trace.restart unshuffled same durable 1

theorem continues_of_traces {previous seed : Option (Snapshot Float)} {xs ys : List (Step Float)}
    {durable : Bool} {p p₂ : Progress Float} (whole : run.Trace source shuffles 1 previous none
      (.fresh durable) (xs ++ ys) p)
    (resumed : run.Trace source shuffles 1 seed none (.fresh durable) (Step.afresh ys) p₂)
    {k : Nat} (below : k < ys.length) : Continues xs.length (k + 1) p p₂ := by
  have old : (xs ++ ys)[xs.length + k]? = some ys[k] := by
    rw [List.getElem?_append_right (by omega), Nat.add_sub_cancel_left,
      List.getElem?_eq_getElem below]
  have new : (Step.afresh ys)[k]? =
      some { ys[k] with change := if k = 0 then none else ys[k].change } := by
    rw [Step.getElem?_afresh, List.getElem?_eq_getElem below]
    rfl
  refine ⟨⟨ys[k].resumed, ?_, ?_⟩, ⟨ys[k].entry (1 + (xs.length + k)), ?_, ?_⟩⟩
  · have kept := whole.lookup_eq old
    rwa [show 1 + (xs.length + k) = xs.length + (k + 1) by omega] at kept
  · have kept := resumed.lookup_eq new
    rwa [Nat.add_comm 1 k] at kept
  · rw [whole.log_eq]
    change (Step.entries 1 (xs ++ ys))[xs.length + k]? = _
    rw [Step.getElem?_entries, old]
    rfl
  · rw [resumed.log_eq]
    change (Step.entries 1 (Step.afresh ys))[k]? = _
    rw [Step.getElem?_entries, new, Nat.add_comm 1 k]
    simp [Step.entry]

theorem restarts [DenseSolver.Shaped Float] (run : Run Float) (source : Source Float)
    (shuffles : Shuffles) (durable : Bool) (previous : Option (Snapshot Float)) {n : Nat} (m : Nat)
    (someFirst : 0 < n) (strict : run.tolerance = some 0) (unshuffled : run.Unshuffled)
    (nonempty : source.examples ≠ []) (resumable : run.Resumable previous)
    (dimension : Double.Holds run.task.dimension) :
    run.Restarts source shuffles durable previous n m := by
  intro whole p returned
  rw [fit_withIterations] at returned
  obtain ⟨steps, count, trace⟩ :=
    steps_of_returned strict unshuffled nonempty resumable returned
  obtain ⟨xs, ys, rfl, before, after⟩ : ∃ xs ys, steps = xs ++ ys ∧ xs.length = n ∧
      ys.length = m :=
    ⟨steps.take n, steps.drop n, (List.take_append_drop n steps).symm, by simp [count],
      by simp [count]⟩
  obtain ⟨middle, front, back⟩ := trace.append
  have unsettled := trace.unsettled strict
  obtain ⟨last, ending⟩ : ∃ last, xs.getLast? = some last :=
    Option.isSome_iff_exists.mp (by simpa using List.ne_nil_of_length_pos (before ▸ someFirst))
  obtain ⟨init, made⟩ := List.getLast?_eq_some_iff.mp ending
  have seed : Step.seedAfter previous xs = some last.resumed := by
    rw [made, Step.seedAfter_snoc]
  have fits := front.fits unshuffled nonempty resumable last (List.mem_of_getLast? ending)
  have first := iterate_of_trace front strict fun step member => unsettled step (by simp [member])
  rw [before, seed] at first
  refine ⟨_, middle, last.resumed, by rw [fit_withIterations]; exact first, rfl, ?_⟩
  intro rows iteration
  obtain ⟨cells, written, _, read⟩ := Snapshot.readBack_of_fits fits dimension rows iteration
  -- What is lost in writing and reading is nothing that an iteration reads.
  have same := run.iteration_resumes source shuffles
    (⟨rfl, rfl, rfl⟩ : last.resumed.Resumes last.resumed.readBack)
  rw [seed] at back
  obtain ⟨p₂, later⟩ := restart_afresh unshuffled back same
    (front.durable_eq.symm : (Progress.fresh durable).store.durable = _)
  have resumed := iterate_of_trace later strict (later.unsettled strict)
  rw [Step.length_afresh, after] at resumed
  refine ⟨cells, last.resumed.readBack, _, p₂, written, read,
    by rw [fit_withIterations]; exact resumed, ?_⟩
  intro k least most
  obtain ⟨k, rfl⟩ : ∃ j, k = j + 1 := ⟨k - 1, by omega⟩
  rw [← before]
  exact continues_of_traces trace later (by omega)

end Run

def Task.halving : Task Float :=
  ⟨1, .ridge, 0.5, 0, by decide, by decide +kernel, by decide +kernel⟩

def Source.point : Source Float where
  dimension := 1
  survival := false
  examples := [⟨[1], .plain 1⟩]
  uniform := by simp [Example.dimension, Label.isSurvival]

def Snapshot.ragged : Snapshot Float where
  task := .halving
  model := [0]
  loss := 0
  rows := 1
  method := .text Incremental.name
  memory := ⟨0, some [0, 0], none⟩
  gradientNorm := none
  condition := none
  inverseDiagonal := none

namespace Run

def halving (method : Method) : Run Float where
  task := .halving
  method := method
  tolerance := some 0
  maxIterations := 1
  parts := some 1
  shape := .tree
  beta := .fletcherReeves
  lineSearch := .fixed
  stepsizes := []
  sizeBound := 1
  conditionBound := 1

instance : DenseSolver Float := Elimination.solver Float

instance : DenseSolver.Shaped Float := Elimination.shaped

def left? (run : Run Float) (source : Source Float) (previous : Option (Snapshot Float)) :
    Option (Snapshot Float) :=
  ((run.fit source (fun _ => []) previous).run (.fresh false)).1.toOption.bind (·.snapshot)

theorem returns_of_left? {run : Run Float} {source : Source Float}
    {previous : Option (Snapshot Float)} (left : (run.left? source previous).isSome = true) :
    ∃ o p, (run.fit source (fun _ => []) previous).run (.fresh false) = (.ok o, p) := by
  unfold left? at left
  rcases ended : (run.fit source (fun _ => []) previous).run (.fresh false) with ⟨_ | o, p⟩
  · rw [ended] at left
    cases left
  · exact ⟨o, p, rfl⟩

theorem restarts_halving :
    let run := halving .conjugate
    (∃ o p, ((run.withIterations 2).fit .point (fun _ => []) none).run (.fresh false) =
      (.ok o, p)) ∧ run.Restarts .point (fun _ => []) false none 1 1 := by
  intro run
  have whole : ((run.withIterations 2).left? .point none).isSome = true := by decide +kernel
  exact ⟨returns_of_left? whole, restarts run .point _ false none 1 (by decide) rfl (.inl rfl)
    (by decide) nofun (Double.holds_ofNat (n := 1) (by decide))⟩

theorem not_restarts_ragged :
    let run := halving .incremental
    run.tolerance = some 0 ∧ run.Unshuffled ∧ Source.point.examples ≠ [] ∧
      ¬ run.Restarts .point (fun _ => []) false (some .ragged) 1 1 := by
  intro run
  refine ⟨rfl, .inl rfl, by decide, fun restarts => ?_⟩
  have whole : ((run.withIterations 2).left? .point (some .ragged)).isSome = true := by
    decide +kernel
  obtain ⟨o, p, returned⟩ := returns_of_left? whole
  obtain ⟨first, p₁, s, ran, snapshot, rest⟩ := restarts o p returned
  have found : (run.withIterations 1).left? .point (some .ragged) = some s := by
    rw [left?, ran]
    exact snapshot
  have rows : ((run.withIterations 1).left? .point (some .ragged)).map (·.rows) =
      some (Scalar.ofNat 1) := by
    decide +kernel
  have iteration : ((run.withIterations 1).left? .point (some .ragged)).map
      (·.memory.iteration) = some (Scalar.ofNat 0) := by
    decide +kernel
  have refused : ((run.withIterations 1).left? .point (some .ragged)).any (fun s =>
      (s.toCells >>= Snapshot.ofCells).isOk) = false := by
    decide +kernel
  rw [found] at rows iteration refused
  simp only [Option.map_some, Option.some.injEq] at rows iteration
  have wholeRows : IsWhole s.rows := by
    rw [rows]
    exact isWhole_ofNat (by decide)
  have wholeIteration : IsWhole s.memory.iteration := by
    rw [iteration]
    exact isWhole_ofNat (by decide)
  obtain ⟨cells, s', _, _, written, read, _⟩ := rest wholeRows wholeIteration
  rw [Option.any_some, written, ok_bind, read] at refused
  cases refused

end Run

def Task.wide (d : Nat) (positive : 0 < d) : Task Float :=
  { halving with dimension := d, dimension_pos := positive }

def Source.zero (d : Nat) : Source Float where
  dimension := d
  survival := false
  examples := [⟨Vec.zeros d, .plain 0⟩]
  uniform := by simp [Example.dimension, Label.isSurvival]

def Snapshot.resting (task : Task Float) : Snapshot Float where
  task := task
  model := Vec.zeros task.dimension
  loss := 0
  rows := Scalar.ofInt 1
  method := .text Incremental.name
  memory := .fresh
  gradientNorm := none
  condition := none
  inverseDiagonal := none

theorem Snapshot.sized_resting {task : Task Float} : (resting task).Sized :=
  ⟨Vec.length_zeros _, ⟨by simp [resting, Memory.fresh], by simp [resting, Memory.fresh]⟩,
    by simp [resting]⟩

namespace Double

theorem arithmetic_of_zero :
    (0 : Float) + 0 = 0 ∧ (0 : Float) * 0 = 0 ∧ Scalar.half * (0 : Float) * 0 = 0 ∧
      Scalar.half * ((0 : Float) - 0) * (0 - 0) = 0 ∧
      (0 : Float) - 0.5 * (-(0 - 0) * 0 + 0 * 0) = 0 ∧ Scalar.isFinite (0 : Float) = true ∧
      ((0 : Float) == 0) = true ∧ ((Scalar.ofInt 1 : Float) == 0) = false := by
  decide +kernel

theorem zero_add_zero : (0 : Float) + 0 = 0 := arithmetic_of_zero.1

theorem requireFinite_zero (name : String) : requireFinite name (0 : Float) = .ok () := by
  obtain ⟨-, -, -, -, -, finite, -⟩ := arithmetic_of_zero
  have measured : Scalar.measure (0 : Float) = .ok 0 := rfl
  rw [requireFinite, measured, ok_bind, if_pos finite]
  rfl

end Double

namespace Vec

theorem dot_zeros (d : Nat) : dot (zeros d) (zeros d) = (0 : Float) := by
  obtain ⟨sum, product, -⟩ := Double.arithmetic_of_zero
  rw [dot, zeros, List.zipWith_replicate', product]
  induction d with
  | zero => rfl
  | succ d ih => rw [List.replicate_succ, List.sum_cons, ih, sum]

theorem isFinite_zeros (d : Nat) : isFinite (zeros d : Vec Float) = true := by
  obtain ⟨-, -, -, -, -, finite, -⟩ := Double.arithmetic_of_zero
  rw [isFinite, zeros, List.all_replicate]
  split_ifs
  · rfl
  · exact finite

theorem combine_zeros (op : Float → Float → Float) (a : Float) (d : Nat) :
    combine op (zeros d) (List.replicate d a) = .ok (List.replicate d (op 0 a)) := by
  rw [combine_of_length_eq _ (by simp), zeros, List.zipWith_replicate']

end Vec

namespace Incremental

variable {d : Nat} {positive : 0 < d}

theorem moved_zeros : moved .ridge (.wide d positive) (Vec.zeros d) ⟨Vec.zeros d, .plain 0⟩ =
    .ok (Vec.zeros d) := by
  have own : Objective.ridge.gradient (Vec.zeros d) ⟨Vec.zeros d, .plain (0 : Float)⟩ =
      .ok (List.replicate d (-(0 - 0) * 0)) := by
    rw [Objective.gradient, Vec.dot?_of_length_eq rfl, Vec.dot_zeros]
    change Except.ok (Vec.scale _ (List.replicate d 0)) = _
    rw [Vec.scale, List.map_replicate]
  have smooth : Penalty.l2.smoothGradient (0 : Float) (Vec.zeros d) =
      .ok (List.replicate d (0 * 0)) := by
    change Except.ok (Vec.scale _ (List.replicate d 0)) = _
    rw [Vec.scale, List.map_replicate]
  obtain ⟨-, -, -, -, same, -⟩ := Double.arithmetic_of_zero
  have sum : Vec.add? (List.replicate d (-(0 - 0) * 0 : Float)) (List.replicate d (0 * 0)) =
      .ok (List.replicate d (-(0 - 0) * 0 + 0 * 0)) := by
    rw [Vec.add?, Vec.combine_of_length_eq _ (by simp), List.zipWith_replicate']
  rw [moved, own, ok_bind]
  change (Penalty.l2.smoothGradient (0 : Float) (Vec.zeros d) >>= fun smooth => _) >>= _ = _
  rw [smooth, ok_bind]
  change Vec.add? _ _ >>= _ = _
  rw [sum, ok_bind]
  change Vec.combine _ _ (Vec.scale 0.5 _) >>= _ = _
  rw [Vec.scale, List.map_replicate, Vec.combine_zeros, ok_bind, same]
  rfl

theorem loss_zeros :
    Objective.ridge.loss (Vec.zeros d) ⟨Vec.zeros d, .plain (0 : Float)⟩ = .ok 0 := by
  obtain ⟨-, -, -, square, -⟩ := Double.arithmetic_of_zero
  rw [Objective.loss, Vec.dot?_of_length_eq rfl, Vec.dot_zeros, ok_bind]
  exact congrArg Except.ok square

variable {i : Incremental Float}

theorem absorb_zeros (kind : i.objective = .ridge) :
    (i.machine.absorb ⟨Vec.zeros d, .plain 0⟩).exec
        ⟨.wide d positive, Vec.zeros d, .fresh, .zero, 0⟩ =
      .ok ⟨.wide d positive, Vec.zeros d, .fresh, .zero, 1⟩ := by
  change (i.strategy.absorb _).exec _ = _
  rw [Strategy.absorb, Update.exec_bind_unit]
  change (i.step _).exec _ >>= _ = _
  simp only [step, Update.exec_get_bind, Update.exec_ofExcept_bind, kind, moved_zeros, ok_bind,
    Update.exec_bind_unit, Update.exec_modify, loss_zeros]
  simp [Totals.zero, Double.zero_add_zero]

theorem finish_zeros (kind : i.objective = .ridge) :
    i.finish ⟨.wide d positive, Vec.zeros d, .fresh, .zero, 1⟩ =
      .ok (.resting (.wide d positive)) := by
  have penalty : Penalty.l2.loss (0 : Float) (Vec.zeros d) = .ok 0 := by
    obtain ⟨-, -, square, -⟩ := Double.arithmetic_of_zero
    change Except.ok (Scalar.half * (0 : Float) * Vec.dot _ _) = _
    rw [Vec.dot_zeros, square]
  rw [finish, requireFiniteVec, if_pos (Vec.isFinite_zeros d), ok_bind, kind]
  change Penalty.l2.loss (0 : Float) (Vec.zeros d) >>= _ = _
  rw [penalty, ok_bind]
  change (requireFinite "IGD loss" ((0 : Float) + 0) >>= fun _ =>
    .ok { Snapshot.resting (.wide d positive) with loss := (0 : Float) + 0 }) = _
  rw [Double.zero_add_zero, Double.requireFinite_zero]
  rfl

theorem run_zeros (task : i.origin.task = .wide d positive)
    (started : i.machine.start = .ok ⟨.wide d positive, Vec.zeros d, .fresh, .zero, 0⟩)
    (shape : Shape) : i.machine.run shape [[⟨Vec.zeros d, .plain 0⟩]] =
      .ok (some (.resting (.wide d positive))) := by
  have kind : i.objective = .ridge := by rw [objective, task]; rfl
  have accepted : i.machine.accepts ⟨Vec.zeros d, .plain 0⟩ = .ok () := by
    refine if_pos ?_
    change (Vec.zeros d).length = i.origin.task.dimension
    rw [task, Vec.length_zeros]
    rfl
  rw [Machine.run_singleton]
  change ((i.machine.take _).exec none >>= _) >>= _ = _
  rw [Machine.take_none, accepted, ok_bind, started, ok_bind, absorb_zeros kind]
  change (i.finish ⟨_, _, _, _, _⟩ >>= _) = _
  rw [finish_zeros kind]
  rfl

end Incremental

namespace Run

variable {d : Nat} {positive : 0 < d}

def wide (d : Nat) (positive : 0 < d) : Run Float :=
  { halving .incremental with task := .wide d positive }

theorem iteration_zeros {seed : Option (Snapshot Float)}
    (resting : seed = none ∨ seed = some (.resting (.wide d positive))) (p : Progress Float) :
    ((wide d positive).iteration (.zero d) (fun _ => []) seed).run p =
      (.ok (some (.resting (.wide d positive))), { p with passes := p.passes + 1 }) := by
  let i : Incremental Float := ⟨⟨.wide d positive, seed⟩, rfl⟩
  have started :
      i.machine.start = .ok ⟨.wide d positive, Vec.zeros d, .fresh, .zero, 0⟩ := by
    rcases resting with rfl | rfl
    · rfl
    · change (Origin.start ⟨_, _⟩ >>= _) = _
      rw [Origin.start]
      dsimp only
      rw [if_pos ⟨rfl, rfl⟩]
      rfl
  have passed : ((wide d positive).pass (.zero d) (fun _ => []) i.machine).run p =
      (i.machine.run .tree [[⟨Vec.zeros d, .plain 0⟩]], { p with passes := p.passes + 1 }) := rfl
  rw [Incremental.run_zeros rfl started] at passed
  rw [iteration, if_neg (by simp [wide, halving])]
  exact passed

theorem relativeChange_resting {task : Task Float} {baseline : Option (Snapshot Float)}
    (resting : baseline = none ∨ baseline = some (.resting task)) :
    relativeChange (some (.resting task)) baseline = .ok none := by
  rcases resting with rfl | rfl
  · rfl
  · obtain ⟨-, -, -, -, -, -, zero, -⟩ := Double.arithmetic_of_zero
    change (requireFinite "loss" (0 : Float) >>= fun _ => _) = _
    rw [Double.requireFinite_zero, ok_bind]
    change (requireFinite "loss" (0 : Float) >>= fun _ => _) = _
    rw [Double.requireFinite_zero, ok_bind]
    exact if_pos zero

theorem step_zeros (left k : Nat) {seed baseline : Option (Snapshot Float)}
    (resting : seed = none ∨ seed = some (.resting (.wide d positive)))
    (compared : baseline = none ∨ baseline = some (.resting (.wide d positive))) {p : Progress Float}
    (memory : p.store.durable = false) :
    ∃ kept, kept.store.durable = false ∧
      ((wide d positive).iterate (.zero d) (fun _ => []) k seed baseline (left + 1)).run p =
        ((wide d positive).iterate (.zero d) (fun _ => []) (k + 1)
          (some (.resting (.wide d positive))) (some (.resting (.wide d positive))) left).run
          kept := by
  obtain ⟨-, -, -, -, -, -, -, some⟩ := Double.arithmetic_of_zero
  have counted : (Snapshot.resting (.wide d positive)).lossPerRow = .ok (0 / Scalar.ofInt 1) :=
    if_neg (ne_true_of_eq_false some)
  have recorded : ∃ kept, (Progress.record k p.passes (.resting (.wide d positive))
      (.resting (.wide d positive)) none baseline).run { p with passes := p.passes + 1 } =
        (.ok none, kept) :=
    Progress.record_of (relativeChange_resting compared) counted (by simp [memory])
  obtain ⟨kept, records⟩ := recorded
  have durable : kept.store.durable = false := by
    rw [(Progress.record_ok records).2.1, Store.durable_keep]
    exact memory
  exact ⟨kept, durable,
    iterate_of_step ⟨_, _, _, _, 0, 0⟩ (iteration_zeros resting p) rfl records rfl⟩

theorem fit_zeros (n : Nat) : ∃ o p, (((wide d positive).withIterations (n + 1)).fit (.zero d)
    (fun _ => []) none).run (.fresh false) = (.ok o, p) ∧
      o.snapshot = some (.resting (.wide d positive)) := by
  suffices all : ∀ (k : Nat) {seed baseline : Option (Snapshot Float)},
      (seed = none ∨ seed = some (.resting (.wide d positive))) →
      (baseline = none ∨ baseline = some (.resting (.wide d positive))) →
      ∀ {p : Progress Float}, p.store.durable = false →
      ∃ o q, ((wide d positive).iterate (.zero d) (fun _ => []) k seed baseline (n + 1)).run p =
        (.ok o, q) ∧ o.snapshot = some (.resting (.wide d positive)) by
    rw [fit_withIterations]
    exact all 1 (.inl rfl) (.inl rfl) rfl
  induction n with
  | zero =>
    intro k seed baseline resting compared p memory
    obtain ⟨kept, -, stepped⟩ := step_zeros 0 k resting compared memory
    exact ⟨_, kept, stepped, rfl⟩
  | succ n ih =>
    intro k seed baseline resting compared p memory
    obtain ⟨kept, durable, stepped⟩ := step_zeros (n + 1) k resting compared memory
    obtain ⟨o, q, returned, left⟩ := ih (k + 1) (.inr rfl) (.inr rfl) durable
    exact ⟨o, q, stepped.trans returned, left⟩

end Run

-- The next whole number above `2 ^ 53` is not a double.
theorem Snapshot.ofCells_wide {s s' : Snapshot Float} {m : Method} (sized : s.Sized)
    (wide : s.task.dimension = 9007199254740993) : ofCells (s.cells m) ≠ .ok s' := by
  intro read
  have rounded : wholeCell (Scalar.ofNat 9007199254740993 : Float) = .ok 9007199254740992 := by
    decide +kernel
  have misfit : ((9007199254740992 : Int) ≤ 0 ||
      (s.cells m).length != cellCount (9007199254740992 : Int).toNat) = true := by
    rw [length_cells sized, wide]
    decide
  rw [ofCells, read_head m rfl, ok_bind, wide, rounded, ok_bind] at read
  dsimp only at read
  rw [misfit] at read
  cases read

namespace Run

theorem not_restarts_wide :
    let run := wide 9007199254740993 (by decide)
    run.tolerance = some 0 ∧ run.Unshuffled ∧ (Source.zero 9007199254740993).examples ≠ [] ∧
      ¬ run.Restarts (.zero 9007199254740993) (fun _ => []) false none 1 1 := by
  intro run
  refine ⟨rfl, .inl rfl, nofun, fun restarts => ?_⟩
  have fits (n : Nat) := @fit_zeros 9007199254740993 (by decide) n
  obtain ⟨o, p, returned, -⟩ := fits 1
  obtain ⟨first, p₁, s, ran, snapshot, rest⟩ := restarts o p returned
  obtain ⟨o', q, alone, left⟩ := fits 0
  obtain ⟨same, -⟩ := Prod.mk.inj (ran.symm.trans alone)
  cases same
  cases snapshot.symm.trans left
  have one : IsWhole (Scalar.ofNat 1) := isWhole_ofNat (by decide)
  have zero : IsWhole (Scalar.ofNat 0) := isWhole_ofNat (by decide)
  obtain ⟨cells, s', _, _, written, read, -⟩ := rest one zero
  cases (Snapshot.toCells_eq (m := .incremental) rfl).symm.trans written
  exact Snapshot.ofCells_wide Snapshot.sized_resting rfl read

theorem not_restarts_ragged_or_wide :
    let ragged := halving .incremental
    let oversized := wide 9007199254740993 (by decide)
    (ragged.tolerance = some 0 ∧ ragged.Unshuffled ∧ Source.point.examples ≠ [] ∧
      ¬ ragged.Restarts .point (fun _ => []) false (some .ragged) 1 1) ∧
    oversized.tolerance = some 0 ∧ oversized.Unshuffled ∧
      (Source.zero 9007199254740993).examples ≠ [] ∧
      ¬ oversized.Restarts (.zero 9007199254740993) (fun _ => []) false none 1 1 :=
  ⟨not_restarts_ragged, not_restarts_wide⟩

end Run

end Passwise
