import Passwise.Proofs.Partition
import Passwise.Proofs.Counting
import Passwise.Proofs.Trace
import Passwise.Scalar.Numeral

set_option autoImplicit false

namespace Passwise

variable {α : Type} [Scalar α]

namespace Scalar

def CountsFrom (x : α) (n : Int) : Prop :=
  ∀ y, operand x = .ok y → y + ofNat 1 = ofInt (n + 1)

-- Whole numbers count as the integers do, also where other values are rounded.
class Counting (α : Type) [Scalar α] : Prop where
  countsFrom_ofInt : ∀ n : Int, CountsFrom (ofInt n : α) n

end Scalar

instance : Scalar.Counting Numeral where
  countsFrom_ofInt := by
    intro n y operand
    obtain ⟨_, -, operand⟩ := bind_eq_ok.mp operand
    cases operand
    rfl

instance {α : Type} [Exact α] : Scalar.Counting α where
  countsFrom_ofInt := by
    intro n y operand
    rw [Exact.operand_eq, Except.ok.injEq] at operand
    simp [← operand]

theorem Memory.nextIteration_eq {memory : Memory α} {n : Int}
    (counts : Scalar.CountsFrom memory.iteration n) {next : α}
    (made : memory.nextIteration = .ok next) : next = Scalar.ofInt (n + 1) := by
  obtain ⟨y, operand, made⟩ := bind_eq_ok.mp made
  cases made
  exact counts y operand

namespace Step

def kept (k : Nat) : List (Step α) → List (Int × Option (Snapshot α))
  | [] => []
  | step :: rest => ((k : Int), some step.resumed) :: kept (k + 1) rest

theorem map_fst_kept (k : Nat) (steps : List (Step α)) :
    (kept k steps).map (·.1) = (List.range' k steps.length).map fun i => (i : Int) := by
  induction steps generalizing k with
  | nil => rfl
  | cons step rest ih => simp [kept, ih, List.range'_succ]

theorem map_iteration_entries (k : Nat) (steps : List (Step α)) :
    (entries k steps).map (·.iteration) = List.range' k steps.length := by
  induction steps generalizing k with
  | nil => rfl
  | cons step rest ih => simp [entries, entry, ih, List.range'_succ]

theorem map_entries {β : Type} {f : Entry α → β} {g : Step α → β}
    (same : ∀ k step, f (entry k step) = g step) (k : Nat) (steps : List (Step α)) :
    (entries k steps).map f = steps.map g := by
  induction steps generalizing k with
  | nil => rfl
  | cons step rest ih => simp [entries, same, ih]

theorem mem_entries {k : Nat} {steps : List (Step α)} {e : Entry α} (member : e ∈ entries k steps) :
    ∃ step ∈ steps, ∃ i, e = step.entry i := by
  induction steps generalizing k with
  | nil => cases member
  | cons step rest ih =>
    rcases List.mem_cons.mp member with rfl | later
    · exact ⟨step, by simp, k, rfl⟩
    · obtain ⟨other, inside, same⟩ := ih later
      exact ⟨other, by simp [inside], same⟩

theorem entries_snoc (k : Nat) (steps : List (Step α)) (last : Step α) :
    entries k (steps ++ [last]) = entries k steps ++ [last.entry (k + steps.length)] := by
  induction steps generalizing k with
  | nil => rfl
  | cons step rest ih =>
    rw [List.cons_append, entries, ih, entries, List.length_cons, List.cons_append]
    congr 4
    omega

theorem dropLast_entries (k : Nat) (steps : List (Step α)) :
    (entries k steps).dropLast = entries k steps.dropLast := by
  rcases List.eq_nil_or_concat steps with rfl | ⟨front, last, rfl⟩
  · rfl
  · rw [List.concat_eq_append, entries_snoc, List.dropLast_concat, List.dropLast_concat]

end Step

theorem Store.keep_of_absent {store : Store α} {i : Int} (absent : store.kept.lookup i = none)
    (entry : Option (Snapshot α)) : (store.keep i entry).kept = store.kept ++ [(i, entry)] := by
  simp [Store.keep, absent]

namespace Run

variable {run : Run α} {source : Source α} {shuffles : Shuffles}

-- A search along a direction takes a second pass, and so do trials that are scored.
def passesPerIteration (run : Run α) : Nat :=
  if run.lineSearch = .bestBall ∧ (run.method = .incremental ∨ run.method = .conjugate) then 2
  else 1

-- Where there was no loss to compare with the change counts as infinite.
def reached (run : Run α) (e : Entry α) : Bool :=
  run.tolerance.any fun tolerance => e.change.any fun change => decide (change < tolerance)

theorem entries_reached (k : Nat) (steps : List (Step α)) :
    (∃ last, (Step.entries k steps).getLast? = some last ∧ run.reached last = true) ↔
      ∃ last, steps.getLast? = some last ∧ run.settled last = true := by
  rcases List.eq_nil_or_concat steps with rfl | ⟨front, last, rfl⟩
  · simp [Step.entries]
  · rw [List.concat_eq_append, Step.entries_snoc]
    simp only [List.getLast?_concat, Option.some.injEq, exists_eq_left']
    rfl

def Shuffled (source : Source α) (shuffles : Shuffles) : Prop :=
  ∀ i, (shuffles i).Perm (List.range source.size)

theorem parts?_perm (shuffled : Shuffled source shuffles) {p q : Progress α}
    {parts : List (List (Example α))}
    (dealt : (run.parts? source shuffles).run p = (.ok parts, q)) :
    parts.flatten.Perm source.examples := by
  unfold parts? at dealt
  split_ifs at dealt with timed single
  · cases dealt
    rw [List.flatten_singleton]
    exact List.mergeSort_perm _ _
  · cases dealt
    simp
  · obtain ⟨_, _, here, dealt⟩ := Update.run_bind_eq_ok.mp dealt
    cases here
    obtain ⟨_, _, _, dealt⟩ := Update.run_bind_eq_ok.mp dealt
    split at dealt
    · rename_i count known
      rw [Update.run_ofExcept, Prod.mk.injEq] at dealt
      have positive : 1 ≤ count := by
        by_contra few
        rw [Source.parts, if_pos (by omega)] at dealt
        cases dealt.1
      obtain ⟨cut, made, perm⟩ := source.parts_perm (shuffled p.shuffles) positive
      rw [made, Except.ok.injEq] at dealt
      exact dealt.1 ▸ perm
    · cases dealt

variable {σ ρ : Type} {m : Machine α σ ρ} {p q : Progress α}

theorem pass_passes {result : Except Error (Option ρ)}
    (done : (run.pass source shuffles m).run p = (result, q)) : q.passes = p.passes + 1 := by
  have parts : Update.Keeps Progress.passes (run.parts? source shuffles) := by
    unfold parts?
    split_ifs
    · exact .pure _
    · exact .pure _
    · refine .bind .get fun _ => .bind (.modify fun _ => rfl) fun _ => ?_
      split
      · exact .ofExcept _
      · exact .throw _
  unfold pass at done
  rw [Update.run_bind_ok (Update.run_modify _ _)] at done
  exact (parts.bind fun _ => Update.Keeps.ofExcept _).of_run done

theorem pass_dealt (shuffled : Shuffled source shuffles) {result : Option ρ}
    (done : (run.pass source shuffles m).run p = (.ok result, q)) :
    ∃ parts, parts.flatten.Perm source.examples ∧ m.run run.shape parts = .ok result := by
  unfold pass at done
  rw [Update.run_bind_ok (Update.run_modify _ _)] at done
  obtain ⟨parts, _, dealt, ran⟩ := Update.run_bind_eq_ok.mp done
  rw [Update.run_ofExcept, Prod.mk.injEq] at ran
  exact ⟨parts, parts?_perm shuffled dealt, ran.1⟩

theorem pass_counts (shuffled : Shuffled source shuffles) {holds : Nat → σ → Prop}
    (counts : m.Counts holds) {result : Option ρ}
    (done : (run.pass source shuffles m).run p = (.ok result, q)) :
    (source.examples = [] ∧ result = none) ∨
      (source.examples ≠ [] ∧ ∃ state, holds source.size state ∧ m.result state = .ok result) := by
  obtain ⟨parts, perm, ran⟩ := pass_dealt shuffled done
  rcases counts.run_ok ran with ⟨empty, none⟩ | ⟨some, state, after, finished⟩
  · exact .inl ⟨(empty ▸ perm).nil_eq.symm, none⟩
  · rw [perm.length_eq] at after
    exact .inr ⟨fun empty => some ((empty ▸ perm).eq_nil), state, after, finished⟩

theorem memory_of_advance {s moved : Snapshot α} {stepsize : α}
    (advanced : s.advance stepsize = .ok moved) : moved.memory = s.memory := by
  unfold Snapshot.advance at advanced
  split at advanced
  · cases advanced
  · obtain ⟨_, -, advanced⟩ := bind_eq_ok.mp advanced
    dsimp only at advanced
    split_ifs at advanced
    · cases advanced
    obtain ⟨_, -, advanced⟩ := bind_eq_ok.mp advanced
    obtain ⟨model, -, advanced⟩ := bind_eq_ok.mp advanced
    cases advanced
    rfl

theorem next_counts {s resumed : Snapshot α} {stepsize : Option α}
    (done : (run.next source shuffles s).run p = (.ok (resumed, stepsize), q)) :
    resumed.memory = s.memory ∧ q.passes = p.passes +
      if run.method = .conjugate ∧ run.lineSearch = .bestBall then 1 else 0 := by
  rcases next_ok done with ⟨conjugate, step, rfl, stepped⟩ | ⟨other, rfl, rfl, rfl⟩
  · obtain ⟨advanced, ⟨fixed, -, rfl⟩ | ⟨best, _, _, _, -, -, passed, -⟩⟩ := lineStep_ok stepped
    · exact ⟨memory_of_advance advanced, by simp [fixed]⟩
    · rw [if_pos ⟨conjugate, best⟩]
      exact ⟨memory_of_advance advanced, pass_passes passed⟩
  · exact ⟨rfl, by simp [other]⟩

theorem bestTrial_counts (shuffled : Shuffled source shuffles) {seed : Option (Snapshot α)}
    {result : Option (Snapshot α)}
    (done : (run.bestTrial source shuffles seed).run p = (.ok result, q)) :
    (source.examples = [] ∧ result = none) ∨
      (source.examples ≠ [] ∧ q.passes = p.passes + 2 ∧ ∃ found, result = some found ∧
        found.Counted .incremental ⟨run.task, seed⟩ source.size) := by
  obtain ⟨t, snapshots, middle, made, ran, ending⟩ := bestTrial_ran done
  have first := pass_passes ran
  rcases pass_counts shuffled t.counts ran with ⟨empty, rfl⟩ | ⟨some, states, counted, finished⟩
  · rcases ending with ⟨-, none, -⟩ | ⟨_, _, _, _, someone, -⟩
    · exact .inl ⟨empty, none⟩
    · cases someone
  · have positive : 0 < source.size := List.length_pos_iff.mpr some
    have origins (i : Incremental α) (member : i ∈ t.trials) :
        i.origin.memory = (Origin.mk run.task seed).memory := by
      rw [Origin.memory, (Trials.make_ok made i member).2, Origin.memory]
    obtain ⟨found, rfl, each⟩ := Trials.result_counted positive counted origins finished
    rcases ending with ⟨none, -⟩ | ⟨_, search, scored, winner, ⟨⟩, scoring, chosen, rfl⟩
    · cases none
    · have second := pass_passes scoring
      obtain ⟨rows, iteration⟩ := each winner (List.mem_of_getElem? chosen)
      exact .inr ⟨some, by omega, _, rfl, rows, iteration⟩

theorem record_passes {k before : Nat} {s resumed : Snapshot α} {stepsize change : Option α}
    {baseline : Option (Snapshot α)}
    (recorded : (Progress.record k before s resumed stepsize baseline).run p = (.ok change, q)) :
    q.passes = p.passes := by
  have keeps : Update.Keeps Progress.passes
      (Progress.record k before s resumed stepsize baseline) :=
    .bind (.onPart _ fun _ _ => rfl) fun _ => .bind (.ofExcept _) fun _ =>
      .bind (.ofExcept _) fun _ => .bind (.modify fun _ => rfl) fun _ => .pure _
  exact keeps.of_run recorded

variable [DenseSolver α]

theorem iteration_counts (shuffled : Shuffled source shuffles) {seed : Option (Snapshot α)}
    {result : Option (Snapshot α)}
    (done : (run.iteration source shuffles seed).run p = (.ok result, q)) :
    (source.examples = [] ∧ result = none) ∨
      (source.examples ≠ [] ∧ (q.passes = p.passes +
          if run.method = .incremental ∧ run.lineSearch = .bestBall then 2 else 1) ∧
        ∃ found, result = some found ∧
          found.Counted run.method ⟨run.task, seed⟩ source.size) := by
  unfold iteration at done
  split_ifs at done with trials
  · rw [if_pos trials, trials.1]
    exact bestTrial_counts shuffled done
  · obtain ⟨o, _, made, done⟩ := Update.run_bind_eq_ok.mp done
    rw [Update.run_ofExcept, Prod.mk.injEq] at made
    obtain ⟨made, rfl⟩ := made
    obtain ⟨method, origin⟩ := optimizer_ok made
    obtain ⟨s, counting, same, machine⟩ := o.counting
    rw [method] at counting
    rw [origin] at same
    rw [machine] at done
    rw [if_neg trials, ← same]
    rcases pass_counts shuffled counting.counts done with
      ⟨empty, none⟩ | ⟨some, state, counted, finished⟩
    · exact .inl ⟨empty, none⟩
    · have positive : 0 < source.size := List.length_pos_iff.mpr some
      exact .inr ⟨some, pass_passes done, counting.result positive counted finished⟩

theorem step_counts (shuffled : Shuffled source shuffles) {seed : Option (Snapshot α)}
    {step : Step α} {iterated moved : Progress α}
    (finds : (run.iteration source shuffles seed).run p = (.ok (some step.found), iterated))
    (moves : (run.next source shuffles step.found).run iterated =
      (.ok (step.resumed, step.stepsize), moved)) :
    source.examples ≠ [] ∧ moved.passes = p.passes + run.passesPerIteration ∧
      step.found.rows = Scalar.ofInt source.size ∧
      run.method.iteration (Origin.mk run.task seed).memory =
        .ok step.resumed.memory.iteration := by
  obtain ⟨memory, second⟩ := next_counts moves
  rcases iteration_counts shuffled finds with ⟨-, none⟩ | ⟨some, first, found, same, counted⟩
  · cases none
  · cases same
    refine ⟨some, ?_, counted.rows, by rw [memory]; exact counted.iteration⟩
    rw [second, first, passesPerIteration]
    cases run.method <;> cases run.lineSearch <;> rfl

namespace Trace

variable {k : Nat} {seed baseline : Option (Snapshot α)} {steps : List (Step α)}

theorem counts (shuffled : Shuffled source shuffles)
    (trace : run.Trace source shuffles k seed baseline p steps q) :
    (∀ step ∈ steps, source.examples ≠ [] ∧ step.passes = run.passesPerIteration ∧
      step.found.rows = Scalar.ofInt source.size) ∧
    q.passes = p.passes + (steps.map (·.passes)).sum := by
  induction trace with
  | nil => simp
  | cons finds moves counts records perRow rest ih =>
    obtain ⟨some, passes, rows, -⟩ := step_counts shuffled finds moves
    have kept := record_passes records
    refine ⟨List.forall_mem_cons.mpr ⟨⟨some, by omega, rows⟩, ih.1⟩, ?_⟩
    rw [ih.2, List.map_cons, List.sum_cons]
    omega

theorem iteration_incremental (shuffled : Shuffled source shuffles)
    (incremental : run.method = .incremental)
    (trace : run.Trace source shuffles k seed baseline p steps q) :
    ∀ step ∈ steps,
      step.resumed.memory.iteration = (Origin.mk run.task seed).memory.iteration := by
  induction trace with
  | nil => simp
  | cons finds moves counts records perRow rest ih =>
    obtain ⟨-, -, -, numbered⟩ := step_counts shuffled finds moves
    rw [incremental, Method.iteration, Except.ok.injEq] at numbered
    refine List.forall_mem_cons.mpr ⟨numbered.symm, fun step member => ?_⟩
    rw [ih step member, numbered]
    rfl

theorem iteration_batch [Scalar.Counting α] (shuffled : Shuffled source shuffles)
    (batch : run.method ≠ .incremental)
    (trace : run.Trace source shuffles k seed baseline p steps q) {n : Int}
    (from_ : Scalar.CountsFrom (Origin.mk run.task seed).memory.iteration n) {j : Nat}
    {step : Step α} (made : steps[j]? = some step) :
    step.resumed.memory.iteration = Scalar.ofInt (n + (j + 1 : Nat)) := by
  induction trace generalizing n j with
  | nil => simp at made
  | @cons _ seed _ _ _ _ _ _ first _ finds moves counts records perRow rest ih =>
    have numbered : first.resumed.memory.iteration = Scalar.ofInt (n + 1) := by
      obtain ⟨-, -, -, numbered⟩ := step_counts shuffled finds moves
      refine Memory.nextIteration_eq from_ ?_
      cases method : run.method with
      | incremental => exact absurd method batch
      | conjugate | newton => rwa [method] at numbered
    cases j with
    | zero =>
      cases made
      exact numbered
    | succ j =>
      have later : Scalar.CountsFrom first.resumed.memory.iteration (n + 1) :=
        numbered ▸ Scalar.Counting.countsFrom_ofInt (n + 1)
      have place : n + ((j + 1 + 1 : Nat) : Int) = n + 1 + ((j + 1 : Nat) : Int) := by omega
      rw [place]
      exact ih later made

theorem kept_eq (trace : run.Trace source shuffles k seed baseline p steps q)
    (absent : ∀ i : Nat, k ≤ i → p.store.kept.lookup (i : Int) = none) :
    q.store.kept = p.store.kept ++ Step.kept k steps := by
  induction trace with
  | nil => simp [Step.kept]
  | cons finds moves counts records perRow rest ih =>
    rename_i k _ _ _ _ _ _ _ step _
    have first := Store.keep_of_absent (absent k (Nat.le_refl k)) (some step.resumed)
    have stored := store_eq finds moves records
    rw [ih fun i later => ?_, stored, first, Step.kept, List.append_assoc]
    · rfl
    · rw [stored, Store.lookup_keep_of_ne _ (by omega)]
      exact absent i (by omega)

end Trace

structure Accounts (run : Run α) (source : Source α) (previous : Option (Snapshot α))
    (o : Outcome α) (q : Progress α) : Prop where
  within : o.iterations ≤ run.maxIterations
  numbered : q.log.map (·.iteration) = List.range' 1 o.iterations
  rows : ∀ e ∈ q.log, e.rows = Scalar.ofInt source.size
  kept : q.store.kept.map (·.1) = (List.range' 1 o.iterations).map fun k => (k : Int)
  untouched : o.iterations = 0 → o.snapshot = previous
  returned : 0 < o.iterations →
    ∃ s, o.snapshot = some s ∧ q.store.find? (.ofInt o.iterations) = some (some s)
  noData : (o.reason = .noData ↔ source.examples = []) ∧ (o.reason = .noData → o.iterations = 0)
  converged : o.reason = .converged ↔ ∃ last, q.log.getLast? = some last ∧ run.reached last = true
  earlier : ∀ e ∈ q.log.dropLast, run.reached e = false
  maxIterations : o.reason = .maxIterations → o.iterations = run.maxIterations
  passes : ∀ e ∈ q.log, e.passes =
    if run.lineSearch = .bestBall ∧ (run.method = .incremental ∨ run.method = .conjugate) then 2
    else 1
  total : 0 < o.iterations → (q.log.map (·.passes)).sum = q.passes
  stamped : ∀ k, 1 ≤ k → k ≤ o.iterations →
    ∃ s, q.store.find? (.ofInt k) = some (some s) ∧
      let start := (previous.elim Memory.fresh (·.memory)).iteration
      (run.method = .incremental → s.memory.iteration = start) ∧
      (run.method ≠ .incremental → ∀ n : Int, Scalar.CountsFrom start n →
        s.memory.iteration = Scalar.ofInt (n + k))

theorem iterate_within {left k : Nat} {seed baseline : Option (Snapshot α)} {o : Outcome α}
    (returned : (run.iterate source shuffles k seed baseline left).run p = (.ok o, q)) :
    o.iterations ≤ k + left - 1 := by
  induction left generalizing k seed baseline p with
  | zero =>
    cases returned
    exact Nat.le_refl _
  | succ left ih =>
    rcases iterate_succ_ok returned with ⟨-, rfl⟩ | ⟨step, kept, -, ⟨-, rfl, -⟩ | ⟨-, later⟩⟩
    · dsimp only
      omega
    · dsimp only
      omega
    · have within := ih later
      omega

namespace Ends

variable {left : Nat} {seed : Option (Snapshot α)} {steps : List (Step α)} {middle : Progress α}
  {reason : Reason}

theorem dropLast_unsettled (ends : run.Ends source shuffles left seed steps middle q reason) :
    ∀ step ∈ steps.dropLast, run.settled step = false := by
  cases ends with
  | maxIterations used same unsettled =>
    exact fun step member => unsettled step (List.dropLast_subset _ member)
  | converged last reached same unsettled stops => exact unsettled
  | noData fewer empty unsettled =>
    exact fun step member => unsettled step (List.dropLast_subset _ member)

theorem of_examples (shuffled : Shuffled source shuffles) (nonempty : source.examples ≠ [])
    (ends : run.Ends source shuffles left seed steps middle q reason) :
    q = middle ∧ reason ≠ .noData ∧ (reason = .maxIterations → steps.length = left) ∧
      (reason = .converged ↔ ∃ last, steps.getLast? = some last ∧ run.settled last = true) := by
  cases ends with
  | maxIterations used same unsettled =>
    refine ⟨same, nofun, fun _ => used, nofun, fun ⟨last, reached, stops⟩ => ?_⟩
    rw [unsettled last (List.mem_of_getLast? reached)] at stops
    cases stops
  | converged last reached same unsettled stops =>
    exact ⟨same, nofun, nofun, fun _ => ⟨last, reached, stops⟩, fun _ => rfl⟩
  | noData fewer empty unsettled =>
    rcases iteration_counts shuffled empty with ⟨none, -⟩ | ⟨-, -, _, same, -⟩
    · exact absurd none nonempty
    · cases same

end Ends

theorem accounts_empty (positive : 0 < run.maxIterations) (shuffled : Shuffled source shuffles)
    (empty : source.examples = []) {previous : Option (Snapshot α)} {o : Outcome α}
    (log : p.log = []) (store : p.store.kept = [])
    (returned : (run.fit source shuffles previous).run p = (.ok o, q)) :
    run.Accounts source previous o q := by
  obtain ⟨steps, middle, trace, iterations, snapshot, ends⟩ := iterate_ok returned
  have none : steps = [] := by
    refine List.eq_nil_iff_forall_not_mem.mpr fun step member => ?_
    exact ((trace.counts shuffled).1 step member).1 empty
  subst none
  cases trace
  obtain ⟨reason, k, s⟩ := o
  simp only [Nat.add_sub_cancel_left, List.length_nil, Step.seedAfter] at iterations snapshot ends
  subst iterations snapshot
  cases ends with
  | maxIterations used same unsettled =>
    simp only [List.length_nil] at used
    omega
  | converged last reached same unsettled stops => cases reached
  | noData fewer found unsettled =>
    have shown := (iteration_keeps _).of_run found
    obtain ⟨kept, -, logged⟩ : _ ∧ _ ∧ _ := by simpa using shown
    rw [log] at logged
    rw [← kept] at store
    exact {
      within := Nat.zero_le _
      numbered := by rw [logged]; rfl
      rows := by simp [logged]
      kept := by rw [store]; rfl
      untouched := fun _ => rfl
      returned := by simp
      noData := by simp [empty]
      converged := by simp [logged]
      earlier := by simp [logged]
      maxIterations := nofun
      passes := by simp [logged]
      total := by simp
      stamped := fun k positive within => absurd (positive.trans within) (by simp) }

theorem accounts_some [Scalar.Counting α] (shuffled : Shuffled source shuffles)
    (nonempty : source.examples ≠ []) {previous : Option (Snapshot α)} {o : Outcome α}
    (log : p.log = []) (store : p.store.kept = []) (passes : p.passes = 0)
    (returned : (run.fit source shuffles previous).run p = (.ok o, q)) :
    run.Accounts source previous o q := by
  obtain ⟨steps, middle, trace, iterations, snapshot, ends⟩ := iterate_ok returned
  obtain ⟨rfl, reason, used, converged⟩ := ends.of_examples shuffled nonempty
  obtain ⟨each, total⟩ := trace.counts shuffled
  have logged : q.log = Step.entries 1 steps := by rw [trace.log_eq, log, List.nil_append]
  have length : o.iterations = steps.length := by omega
  have found (k : Nat) (positive : 1 ≤ k) (within : k ≤ steps.length) :
      ∃ step, steps[k - 1]? = some step ∧
        q.store.find? (.ofInt k) = some (some step.resumed) := by
    have inside : k - 1 < steps.length := by omega
    have place : 1 + (k - 1) = k := by omega
    have kept := trace.lookup_eq (List.getElem?_eq_getElem inside)
    rw [place] at kept
    exact ⟨_, List.getElem?_eq_getElem inside, kept⟩
  constructor
  case within =>
    have within := iterate_within returned
    omega
  case numbered => rw [logged, Step.map_iteration_entries, length]
  case rows =>
    intro e member
    rw [logged] at member
    obtain ⟨step, inside, i, rfl⟩ := Step.mem_entries member
    exact (each step inside).2.2
  case kept =>
    rw [trace.kept_eq (by simp [store]), store, List.nil_append, Step.map_fst_kept, length]
  case untouched =>
    intro none
    obtain rfl : steps = [] := List.length_eq_zero_iff.mp (by omega)
    exact snapshot
  case returned =>
    intro positive
    obtain ⟨step, made, kept⟩ := found o.iterations positive (by omega)
    refine ⟨step.resumed, ?_, kept⟩
    rw [length, ← List.getLast?_eq_getElem?] at made
    obtain ⟨front, rfl⟩ := List.getLast?_eq_some_iff.mp made
    rw [snapshot, Step.seedAfter_snoc]
  case noData => simp [reason, nonempty]
  case converged => rw [converged, logged, entries_reached]
  case earlier =>
    intro e member
    rw [logged, Step.dropLast_entries] at member
    obtain ⟨step, inside, i, rfl⟩ := Step.mem_entries member
    exact ends.dropLast_unsettled step inside
  case maxIterations => exact fun reason => length.trans (used reason)
  case passes =>
    intro e member
    rw [logged] at member
    obtain ⟨step, inside, i, rfl⟩ := Step.mem_entries member
    exact (each step inside).2.1
  case total =>
    intro _
    rw [total, passes, Nat.zero_add, logged, Step.map_entries fun _ _ => rfl]
  case stamped =>
    intro k positive within
    obtain ⟨step, made, kept⟩ := found k positive (by omega)
    refine ⟨step.resumed, kept, fun incremental => ?_, fun batch n from_ => ?_⟩
    · exact trace.iteration_incremental shuffled incremental step (List.mem_of_getElem? made)
    · have numbered := trace.iteration_batch shuffled batch (n := n) from_ made
      rwa [Nat.sub_add_cancel positive] at numbered

theorem fit_accounts [Scalar.Counting α] (run : Run α) (source : Source α) (shuffles : Shuffles)
    (previous : Option (Snapshot α)) (positive : 0 < run.maxIterations)
    (shuffled : ∀ i, (shuffles i).Perm (List.range source.size)) (durable : Bool)
    (files : Directory α) (used : Nat) {o : Outcome α} {q : Progress α}
    (returned : (run.fit source shuffles previous).run
      { Progress.fresh durable with directory := files, shuffles := used } = (.ok o, q)) :
    run.Accounts source previous o q := by
  by_cases empty : source.examples = []
  · exact accounts_empty positive shuffled empty rfl rfl returned
  · exact accounts_some shuffled empty rfl rfl rfl returned

theorem fit_accounts_search :
    let one : Numeral := .real 1
    let task : Task Numeral :=
      ⟨1, .ridge, one, .real 0, by decide, by decide +kernel, by decide +kernel⟩
    let run : Run Numeral := ⟨task, .conjugate, some (.real 0), 2, some 2, .tree, .polakRibiere,
      .bestBall, [one, .real 0.5], 0, .real 0⟩
    let source : Source Numeral := ⟨1, false, [⟨[one], .plain one⟩, ⟨[one], .plain (.real 2)⟩],
      by simp [Example.dimension, Label.isSurvival]⟩
    ∃ o q, (run.fit source (fun _ => [1, 0]) none).run (.fresh true) = (.ok o, q) ∧
      o.iterations = 2 ∧ q.passes = 4 ∧ run.Accounts source none o q := by
  intro one task run source
  rcases ended : (run.fit source (fun _ => [1, 0]) none).run (.fresh true) with ⟨result, q⟩
  have returns : result.toOption.map (·.iterations) = some 2 ∧ q.passes = 4 := by
    have both : ((run.fit source (fun _ => [1, 0]) none).run (.fresh true)).1.toOption.map
        (·.iterations) = some 2 ∧
        ((run.fit source (fun _ => [1, 0]) none).run (.fresh true)).2.passes = 4 := by
      decide +kernel
    rwa [ended] at both
  cases result with
  | error cause => cases returns.1
  | ok o =>
    have shuffled (_ : Nat) : [1, 0].Perm (List.range source.size) := .swap 0 1 []
    exact ⟨o, q, rfl, Option.some.inj returns.1, returns.2,
      fit_accounts run source (fun _ => [1, 0]) none (by decide) shuffled true [] 0 ended⟩

end Run

end Passwise
