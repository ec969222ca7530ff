import Passwise.Proofs.Scoring
import Passwise.Proofs.Bookkeeping
import Passwise.Proofs.Downhill
import Passwise.Proofs.Forward

set_option autoImplicit false

namespace Passwise

section

variable {α : Type} [Scalar α]

theorem Conjugate.direction_of_finish {c : Conjugate α} {state : PassState α} {found : Snapshot α}
    (finished : c.finish state = .ok found) :
    found.task = state.task ∧ ∃ g v, found.memory.previousGradient = some g ∧
      found.memory.direction = some v ∧ v.length = g.length := by
  obtain ⟨⟨g, loss⟩, -, finished⟩ := bind_eq_ok.mp finished
  obtain ⟨v, directed, finished⟩ := bind_eq_ok.mp finished
  obtain ⟨iteration, -, finished⟩ := bind_eq_ok.mp finished
  cases finished
  exact ⟨rfl, g, v, rfl, rfl, Conjugate.length_direction directed⟩

namespace Run

variable [DenseSolver α] {run : Run α} {source : Source α} {shuffles : Shuffles}

omit [DenseSolver α] in
theorem record_error_log {k before : Nat} {s resumed : Snapshot α} {stepsize : Option α}
    {baseline : Option (Snapshot α)} {p q : Progress α} {cause : Error}
    (failed : (Progress.record k before s resumed stepsize baseline).run p = (.error cause, q)) :
    q.log = p.log := by
  unfold Progress.record at failed
  rw [Update.run_bind, Update.run_onPart] at failed
  rcases put : (Store.put (.ofInt k) (some resumed)).run (p.store, p.directory) with ⟨_ | _, kept⟩
  · rw [put] at failed
    cases failed
    rfl
  · rw [put] at failed
    dsimp only at failed
    rcases changed : relativeChange (some s) baseline with _ | change
    · rw [changed] at failed
      cases failed
      rfl
    · rcases ratio : s.lossPerRow with _ | perRow
      · rw [changed, ratio] at failed
        cases failed
        rfl
      · rw [changed, ratio] at failed
        cases failed

theorem iterate_succ {left k : Nat} {seed baseline : Option (Snapshot α)} {p q : Progress α}
    {result : Except Error (Outcome α)}
    (ended : (run.iterate source shuffles k seed baseline (left + 1)).run p = (result, q)) :
    q.log = p.log ∨ ∃ step kept,
      (∀ steps middle,
        run.Trace source shuffles (k + 1) (some step.resumed) (some step.found) kept steps middle →
        run.Trace source shuffles k seed baseline p (step :: steps) middle) ∧
      (q = kept ∨ (run.iterate source shuffles (k + 1) (some step.resumed) (some step.found)
        left).run kept = (result, q)) := by
  have logged {middle : Progress α} (same : middle.shown = p.shown) : middle.log = p.log :=
    congrArg (fun shown => shown.2.2) same
  unfold iterate at ended
  rw [Update.run_bind_ok (Update.run_get p)] at ended
  rcases finds : (run.iteration source shuffles seed).run p with ⟨_ | found, iterated⟩
  · rw [Update.run_bind_error finds] at ended
    cases ended
    exact .inl (logged ((iteration_keeps seed).of_run finds))
  rw [Update.run_bind_ok finds] at ended
  have same := (iteration_keeps seed).of_run finds
  cases found with
  | none =>
    cases ended
    exact .inl (logged same)
  | some s =>
    dsimp only at ended
    rcases moves : (run.next source shuffles s).run iterated with ⟨_ | ⟨resumed, stepsize⟩, moved⟩
    · rw [Update.run_bind_error moves] at ended
      cases ended
      exact .inl (logged (((next_keeps s).of_run moves).trans same))
    rw [Update.run_bind_ok moves] at ended
    dsimp only at ended
    have same := ((next_keeps s).of_run moves).trans same
    rcases records : (Progress.record k p.passes s resumed stepsize baseline).run moved with
      ⟨_ | change, kept⟩
    · rw [Update.run_bind_error records] at ended
      cases ended
      exact .inl ((record_error_log records).trans (logged same))
    rw [Update.run_bind_ok records] at ended
    obtain ⟨_, _, _, perRow, ratio, _⟩ := Progress.record_ok records
    refine .inr ⟨⟨s, resumed, stepsize, change, perRow, moved.passes - p.passes⟩, kept,
      fun steps middle rest => .cons finds moves rfl records ratio rest, ?_⟩
    rcases known : (Update.ofExcept (run.tolerance.elim (.error .wrongType) .ok)).run kept with
      ⟨_ | tolerance, _⟩
    · rw [Update.run_bind_error known] at ended
      rw [Update.run_ofExcept, Prod.mk.injEq] at known
      obtain ⟨-, rfl⟩ := known
      cases ended
      exact .inl rfl
    · obtain ⟨-, rfl⟩ := tolerance_known known
      rw [Update.run_bind_ok known] at ended
      split_ifs at ended
      · cases ended
        exact .inl rfl
      · exact .inr ended

theorem iterate_log {left k : Nat} {seed baseline : Option (Snapshot α)} {p q : Progress α}
    {result : Except Error (Outcome α)}
    (ended : (run.iterate source shuffles k seed baseline left).run p = (result, q)) :
    ∃ steps middle, run.Trace source shuffles k seed baseline p steps middle ∧
      q.log = middle.log := by
  induction left generalizing k seed baseline p with
  | zero =>
    cases ended
    exact ⟨[], _, .nil _ _ _ _, rfl⟩
  | succ left ih =>
    rcases iterate_succ ended with logged | ⟨step, kept, one, rfl | later⟩
    · exact ⟨[], p, .nil _ _ _ _, logged⟩
    · exact ⟨[step], q, one [] q (.nil _ _ _ _), rfl⟩
    · obtain ⟨steps, middle, trace, logged⟩ := ih later
      exact ⟨step :: steps, middle, one steps middle trace, logged⟩

theorem conjugate_of_iteration (shuffled : Shuffled source shuffles)
    (conjugate : run.method = .conjugate) {seed result : Option (Snapshot α)} {p q : Progress α}
    (done : (run.iteration source shuffles seed).run p = (.ok result, q)) :
    ∃ (c : Conjugate α) (parts : List (List (Example α))), c.origin = ⟨run.task, seed⟩ ∧
      parts.flatten.Perm source.examples ∧ c.machine.run run.shape parts = .ok result := by
  have noTrials : ¬ (run.method = .incremental ∧ run.lineSearch = .bestBall) := by
    simp [conjugate]
  rw [iteration, if_neg noTrials] at done
  obtain ⟨o, _, made, done⟩ := Update.run_bind_eq_ok.mp done
  rw [Update.run_ofExcept, Prod.mk.injEq] at made
  obtain ⟨made, rfl⟩ := made
  obtain ⟨method, origin⟩ := optimizer_ok made
  obtain ⟨parts, perm, ran⟩ := pass_dealt shuffled done
  cases o with
  | conjugate c => exact ⟨c, parts, origin, perm, ran⟩
  | incremental i =>
    rw [conjugate] at method
    cases method
  | newton n =>
    rw [conjugate] at method
    cases method

end Run

end

open Matrix

variable {α : Type} [Exact α] {d : Nat}

theorem Strategy.Additive.fits_of_run {s : Strategy α} {o : Objective} {curved : Bool}
    (additive : s.Additive o curved) {shape : Shape} {parts : List (List (Example α))}
    {found : Snapshot α} (done : s.machine.run shape parts = .ok (some found)) :
    ∃ start, s.start = .ok start ∧ start.model.length = s.origin.task.dimension := by
  have all := additive.alike_of_run done
  have refused (cause : Error) (refuses : s.machine.Refusing
      (Example.Alike s.origin.task.dimension false) cause) : False := by
    rw [refuses.run_eq shape all] at done
    split_ifs at done
    cases done
  cases started : s.start with
  | error cause =>
    refine (refused cause fun e alike => ?_).elim
    rw [Strategy.take_none rfl alike, started]
    rfl
  | ok start =>
    refine ⟨start, rfl, ?_⟩
    by_contra misfit
    have wrong : false = true ∨ start.model.length ≠ s.origin.task.dimension := .inr misfit
    obtain ⟨cause, refuses⟩ := additive.refuses_misfits rfl started wrong
    exact refused cause refuses

namespace Conjugate

variable [Exact.Finite α] {c : Conjugate α}

structure Finds (task : Task α) (examples : List (Example α)) (found : Snapshot α)
    (w v : Fin task.dimension → α) : Prop where
  carries : found.task = task
  model : found.model = Vec.of w
  direction : found.memory.direction = some (Vec.of v)
  loss : task.totalLoss examples (Vec.of w) = .ok found.loss

theorem finds_of_run {shape : Shape} {parts : List (List (Example α))}
    {examples : List (Example α)} (split : parts.flatten.Perm examples) {found : Snapshot α}
    (done : c.machine.run shape parts = .ok (some found)) :
    examples ≠ [] ∧ (∀ e ∈ examples, e.Alike c.origin.task.dimension false) ∧
      (∀ s, c.origin.previous = some s → found.model = s.model) ∧
      ∃ w v, Finds c.origin.task examples found w v := by
  have alike : ∀ e ∈ examples, e.Alike c.origin.task.dimension false := fun e member =>
    c.additive.alike_of_run done e (split.mem_iff.mpr member)
  obtain ⟨start, started, fits⟩ := c.additive.fits_of_run done
  obtain ⟨g, collected, previous, same⟩ := totals_of_run started fits split done
  have model : start.model = Vec.of (Vec.entries c.origin.task.dimension start.model) :=
    (Vec.of_entries fits).symm
  rw [totals_eq rfl started model alike] at collected
  simp only [Except.ok.injEq, Prod.mk.injEq] at collected
  obtain ⟨rfl, loss⟩ := collected
  rcases c.counting.counts.run_ok done with ⟨-, none⟩ | ⟨taken, state, counted, result⟩
  · cases none
  obtain ⟨-, finished⟩ := Strategy.result_eq_some result
  obtain ⟨task, g, v, gradient, direction, size⟩ := direction_of_finish finished
  rw [previous, Option.some.injEq] at gradient
  subst gradient
  rw [Vec.length_of] at size
  refine ⟨fun empty => ?_, alike, fun s resumed => ?_,
    Vec.entries c.origin.task.dimension start.model, Vec.entries c.origin.task.dimension v, ?_⟩
  · exact taken ((empty ▸ split).eq_nil)
  · rw [same]
    exact Strategy.model_of_start resumed started
  · constructor
    case carries => exact task.trans (congrArg Prod.fst counted)
    case model => rw [same]; exact model
    case direction => rw [direction, Vec.of_entries size]
    case loss => rw [Task.totalLoss_of c.separable alike, ← loss]; rfl

omit [Exact.Finite α] in
theorem finish_of {state : PassState α} {g v : Vec α} {loss : α}
    (summed : c.sums state = .ok (g, loss))
    (directed : direction c.beta g state.memory = .ok v) :
    ∃ found, c.finish state = .ok found ∧ found.task = state.task ∧
      found.rows = Scalar.ofInt state.rows ∧ found.method = .text name ∧
      found.memory.direction = some v ∧ found.memory.previousGradient = some g := by
  rw [finish, summed, ok_bind]
  dsimp only
  rw [directed, ok_bind, Memory.nextIteration, Exact.operand_eq]
  exact ⟨_, rfl, rfl, rfl, rfl, rfl, rfl⟩

theorem run_of (fitting : c.origin.Fitting) (memory : c.origin.memory.Fits c.origin.task.dimension)
    {examples : List (Example α)} (nonempty : examples ≠ [])
    (alike : ∀ e ∈ examples, e.Alike c.origin.task.dimension false)
    (shape : Shape) {parts : List (List (Example α))} (split : parts.flatten.Perm examples) :
    ∃ found, c.machine.run shape parts = .ok (some found) ∧ found.Left ∧
      found.memory.Fits c.origin.task.dimension := by
  obtain ⟨w, started⟩ : ∃ w : Fin c.origin.task.dimension → α, c.strategy.start =
      .ok ⟨c.origin.task, Vec.of w, c.origin.memory, c.strategy.totals, 0⟩ :=
    Strategy.start_of (s := c.strategy) fitting
  rw [c.additive.totals] at started
  let g := c.objective.gradientOver c.origin.task.regularization examples w
  obtain ⟨v, directed, -⟩ := exists_direction memory c.beta g
  let start : PassState α := ⟨c.origin.task, Vec.of w, c.origin.memory,
    (0 : Share α c.origin.task.dimension).totals false, 0⟩
  have model : start.model = Vec.of w := rfl
  have summed := sums_share (c := c) rfl model examples
  obtain ⟨found, finished, task, rows, method, direction, gradient⟩ := finish_of summed directed
  have ran := c.additive.run_of started model nonempty alike shape split
  refine ⟨found, ran.trans (congrArg (some <$> ·) finished), ⟨⟨.conjugate, method⟩, ?_⟩, ?_, ?_⟩
  · rw [rows, c.objective.rows_state]
    simpa using nonempty
  · rw [direction]
    rintro _ ⟨⟩
    exact (length_direction directed).trans (Vec.length_of g)
  · rw [gradient]
    rintro _ ⟨⟩
    exact Vec.length_of g

end Conjugate

namespace Search

theorem alongDirection_ok {task : Task α} {w v : Fin d → α} {stepsizes : List α} {s : Search α}
    (made : alongDirection task (Vec.of w) (Vec.of v) stepsizes = .ok s) :
    s.task = task ∧ s.models = stepsizes.map (fun a => Vec.of (w + a • v)) ∧
      s.stepsizes = some stepsizes := by
  have models : stepsizes.mapM (fun a => do
      Vec.add? (Vec.of w) (Vec.scale (← Scalar.factor a) (Vec.of v))) =
      .ok (stepsizes.map fun a => Vec.of (w + a • v)) :=
    mapM_ok fun a _ => by simp
  rw [alongDirection, models, ok_bind] at made
  obtain ⟨task, models, steps⟩ := make_ok made
  have plain : stepsizes.map Scalar.plain = stepsizes :=
    (List.map_congr_left fun a _ => Exact.plain_eq a).trans (List.map_id stepsizes)
  exact ⟨task, models, plain ▸ steps⟩

theorem alongDirection_of {task : Task α} (separable : task.objective ≠ .cox)
    (w v : Fin task.dimension → α) {stepsizes : List α} (given : stepsizes ≠ []) :
    ∃ s, alongDirection task (Vec.of w) (Vec.of v) stepsizes = .ok s := by
  have models : stepsizes.mapM (fun a => do
      Vec.add? (Vec.of w) (Vec.scale (← Scalar.factor a) (Vec.of v))) =
      .ok (stepsizes.map fun a => Vec.of (w + a • v)) :=
    mapM_ok fun a _ => by simp
  have some : 0 < (stepsizes.map fun a => Vec.of (w + a • v)).length := by
    simpa using List.length_pos_iff.mpr given
  rw [alongDirection, models, ok_bind, make, dif_pos some, dif_pos (by simp),
    dif_pos (Objective.usesRiskSet_eq_false separable), dif_pos (by simp)]
  exact ⟨_, rfl⟩

end Search

theorem Snapshot.advance_eq [Exact.Finite α] {s : Snapshot α} {w v : Fin d → α}
    (model : s.model = Vec.of w) (direction : s.memory.direction = some (Vec.of v)) (a : α) :
    s.advance a = .ok { s with model := Vec.of (w + a • v) } := by
  simp [advance, direction, model]

namespace Run

variable [DenseSolver α] {run : Run α} {source : Source α} {shuffles : Shuffles}

-- The next iteration starts at the candidate that won, with the loss that it won by.
structure Foretells (run : Run α) (examples : List (Example α)) (step next : Step α)
    (w v : Fin run.task.dimension → α) (a : α) (search : Search α) (winner : Winner α) : Prop where
  model : step.found.model = Vec.of w
  direction : step.found.memory.direction = some (Vec.of v)
  loss : run.task.totalLoss examples (Vec.of w) = .ok step.found.loss
  searches :
    Search.alongDirection run.task (Vec.of w) (Vec.of v) run.stepsizes = .ok search
  wins : ∀ shape parts, parts.flatten.Perm examples →
    search.machine.run shape parts = .ok (some winner)
  stepsize : step.stepsize = some a ∧ winner.stepsize = some a ∧ a ∈ run.stepsizes
  moves : next.found.model = Vec.of (w + a • v)
  agrees : next.found.loss = winner.loss
  least : ∀ b ∈ run.stepsizes, ∃ loss,
    run.task.totalLoss examples (Vec.of (w + b • v)) = .ok loss ∧ next.found.loss ≤ loss

variable [Exact.Finite α]

theorem finds_of_iteration (shuffled : Shuffled source shuffles)
    (conjugate : run.method = .conjugate) {seed : Option (Snapshot α)} {found : Snapshot α}
    {p q : Progress α}
    (done : (run.iteration source shuffles seed).run p = (.ok (some found), q)) :
    source.examples ≠ [] ∧ (∀ e ∈ source.examples, e.Alike run.task.dimension false) ∧
      (∀ s, seed = some s → found.model = s.model) ∧
      ∃ w v, Conjugate.Finds run.task source.examples found w v := by
  obtain ⟨c, parts, origin, split, ran⟩ := conjugate_of_iteration shuffled conjugate done
  have finds := Conjugate.finds_of_run split ran
  rwa [origin] at finds

omit [DenseSolver α] in
theorem winner_of_lineStep (best : run.lineSearch = .bestBall)
    (shuffled : Shuffled source shuffles) (nonempty : source.examples ≠ [])
    (alike : ∀ e ∈ source.examples, e.Alike run.task.dimension false) {found resumed : Snapshot α}
    {w v : Fin run.task.dimension → α}
    (finds : Conjugate.Finds run.task source.examples found w v) {a : α} {p q : Progress α}
    (stepped : (run.lineStep source shuffles found).run p = (.ok (resumed, a), q)) :
    ∃ search winner,
      Search.alongDirection run.task (Vec.of w) (Vec.of v) run.stepsizes = .ok search ∧
      search.Won source.examples winner ∧
      (∀ shape parts, parts.flatten.Perm source.examples →
        search.machine.run shape parts = .ok (some winner)) ∧
      winner.stepsize = some a ∧ a ∈ run.stepsizes ∧
      winner.model = Vec.of (w + a • v) ∧ resumed.model = Vec.of (w + a • v) := by
  obtain ⟨advanced, ⟨fixed, -⟩ | ⟨-, direction, search, scored, known, made, passed, chosen⟩⟩ :=
    lineStep_ok stepped
  · rw [best] at fixed
    cases fixed
  rw [finds.direction, Option.some.injEq] at known
  subst known
  rw [finds.carries, finds.model] at made
  obtain ⟨task, models, stepsizes⟩ := Search.alongDirection_ok made
  obtain ⟨winner, won, wins⟩ := search.exists_won nonempty (task ▸ alike)
  obtain ⟨parts, split, ran⟩ := pass_dealt shuffled passed
  obtain rfl : scored = winner := by
    rw [wins run.shape parts split, Except.ok.injEq, Option.some.injEq] at ran
    exact ran.symm
  have place : run.stepsizes[scored.index]? = some a := by
    have own := won.stepsize
    rw [stepsizes, chosen] at own
    exact own.symm
  have moved : scored.model = Vec.of (w + a • v) := by
    have own := won.model
    rw [models, List.getElem?_map, place, Option.map_some, Option.some.injEq] at own
    exact own.symm
  rw [Snapshot.advance_eq finds.model finds.direction, Except.ok.injEq] at advanced
  exact ⟨search, scored, made, won, wins, chosen, List.mem_of_getElem? place, moved,
    congrArg (·.model) advanced.symm⟩

theorem foretells_next (conjugate : run.method = .conjugate) (best : run.lineSearch = .bestBall)
    (shuffled : Shuffled source shuffles) {seed : Option (Snapshot α)} {step next : Step α}
    {p iterated moved kept again : Progress α}
    (finds : (run.iteration source shuffles seed).run p = (.ok (some step.found), iterated))
    (moves : (run.next source shuffles step.found).run iterated =
      (.ok (step.resumed, step.stepsize), moved))
    (finds' : (run.iteration source shuffles (some step.resumed)).run kept =
      (.ok (some next.found), again)) :
    ∃ w v a search winner, run.Foretells source.examples step next w v a search winner := by
  obtain ⟨nonempty, alike, -, w, v, found⟩ := finds_of_iteration shuffled conjugate finds
  obtain ⟨-, -, resumes, w', v', found'⟩ := finds_of_iteration shuffled conjugate finds'
  rcases next_ok moves with ⟨-, a, stepsize, stepped⟩ | ⟨other, -⟩
  swap
  · exact absurd conjugate other
  obtain ⟨search, winner, made, won, wins, chosen, candidate, moved, resumed⟩ :=
    winner_of_lineStep best shuffled nonempty alike found stepped
  obtain ⟨task, models, -⟩ := Search.alongDirection_ok made
  have same : next.found.model = Vec.of (w + a • v) := (resumes _ rfl).trans resumed
  have agrees : next.found.loss = winner.loss := by
    have own := won.loss
    rw [task, moved, ← same, found'.model, found'.loss, Except.ok.injEq] at own
    exact own
  refine ⟨w, v, a, search, winner, found.model, found.direction, found.loss, made, wins,
    ⟨stepsize, chosen, candidate⟩, same, agrees, fun b member => ?_⟩
  obtain ⟨j, here⟩ := List.mem_iff_getElem?.mp member
  have other : search.models[j]? = some (Vec.of (w + b • v)) := by
    rw [models, List.getElem?_map, here, Option.map_some]
  obtain ⟨loss, -, total⟩ := Search.getElem?_scores (task ▸ alike) other
  refine ⟨loss, by rw [← total, task], ?_⟩
  rw [agrees]
  exact (won.least j _ loss other total).1

theorem Trace.foretells (conjugate : run.method = .conjugate) (best : run.lineSearch = .bestBall)
    (shuffled : Shuffled source shuffles) {k : Nat} {seed baseline : Option (Snapshot α)}
    {p q : Progress α} {steps : List (Step α)}
    (trace : run.Trace source shuffles k seed baseline p steps q) {j : Nat} {step next : Step α}
    (made : steps[j]? = some step) (followed : steps[j + 1]? = some next) :
    ∃ w v a search winner, run.Foretells source.examples step next w v a search winner := by
  induction trace generalizing j with
  | nil => simp at made
  | cons finds moves counts records perRow rest ih =>
    cases j with
    | succ j => exact ih made followed
    | zero =>
      cases made
      cases rest with
      | nil => simp at followed
      | cons finds' _ _ _ _ _ =>
        cases followed
        exact foretells_next conjugate best shuffled finds moves finds'

omit [DenseSolver α] [Exact.Finite α] in
theorem Foretells.loss_le {examples : List (Example α)} {step next : Step α}
    {w v : Fin run.task.dimension → α} {a : α} {search : Search α} {winner : Winner α}
    (foretells : run.Foretells examples step next w v a search winner)
    (stays : 0 ∈ run.stepsizes) : next.found.loss ≤ step.found.loss := by
  obtain ⟨loss, total, below⟩ := foretells.least 0 stays
  rw [zero_smul, add_zero, foretells.loss, Except.ok.injEq] at total
  rwa [← total] at below

structure Ready (run : Run α) (seed : Option (Snapshot α)) : Prop where
  fitting : (Origin.mk run.task seed).Fitting
  memory : (Origin.mk run.task seed).memory.Fits run.task.dimension

omit [DenseSolver α] [Exact.Finite α] in
theorem optimizer_conjugate (conjugate : run.method = .conjugate)
    (separable : run.task.objective ≠ .cox) (seed : Option (Snapshot α)) :
    ∃ c : Conjugate α, run.optimizer seed = .ok (.conjugate c) ∧ c.origin = ⟨run.task, seed⟩ := by
  have noRiskSet := Objective.usesRiskSet_eq_false separable
  unfold optimizer
  simp only [conjugate, Conjugate.make, Origin.make, ok_bind, Conjugate.ofOrigin, dif_pos noRiskSet]
  exact ⟨_, rfl, rfl⟩

omit [DenseSolver α] in
theorem lineStep_of (best : run.lineSearch = .bestBall) (plain : run.Plain source shuffles)
    (given : run.stepsizes ≠ []) {found : Snapshot α} {w v : Fin run.task.dimension → α}
    (finds : Conjugate.Finds run.task source.examples found w v) (p : Progress α) :
    ∃ a moved, (run.lineStep source shuffles found).run p =
      (.ok ({ found with model := Vec.of (w + a • v) }, a), moved) := by
  obtain ⟨search, along⟩ := Search.alongDirection_of plain.separable w v given
  obtain ⟨task, models, stepsizes⟩ := Search.alongDirection_ok along
  obtain ⟨winner, won, wins⟩ := search.exists_won plain.nonempty (task ▸ plain.alike)
  obtain ⟨parts, moved, split, scored⟩ := plain.exists_pass search.machine p
  rw [wins run.shape parts split] at scored
  obtain ⟨a, chosen⟩ : ∃ a, winner.stepsize = some a := by
    have inside := (List.getElem?_eq_some_iff.mp won.model).1
    rw [models, List.length_map] at inside
    exact ⟨_, won.stepsize.trans (by rw [stepsizes]; exact List.getElem?_eq_getElem inside)⟩
  have directed : Search.alongDirection found.task found.model (Vec.of v) run.stepsizes =
      .ok search := by
    rw [finds.carries, finds.model, along]
  refine ⟨a, moved, ?_⟩
  rw [lineStep, best]
  dsimp only
  rw [finds.direction, Option.elim_some, Update.run_bind_ok (Update.run_ofExcept _ _), directed,
    Update.run_bind_ok (Update.run_ofExcept _ _), Update.run_bind_ok scored]
  dsimp only [Option.bind]
  rw [chosen]
  dsimp only
  rw [Snapshot.advance_eq finds.model finds.direction]
  rfl

theorem goes_along (conjugate : run.method = .conjugate) (best : run.lineSearch = .bestBall)
    (plain : run.Plain source shuffles) (given : run.stepsizes ≠ [])
    {seed : Option (Snapshot α)} (ready : run.Ready seed) (p : Progress α) :
    ∃ found iterated resumed stepsize moved,
      (run.iteration source shuffles seed).run p = (.ok (some found), iterated) ∧
      (run.next source shuffles found).run iterated = (.ok (resumed, stepsize), moved) ∧
      found.Left ∧ resumed.Left ∧ run.Ready (some resumed) := by
  obtain ⟨c, made, origin⟩ := optimizer_conjugate conjugate plain.separable seed
  obtain ⟨parts, iterated, split, passed⟩ := plain.exists_pass c.machine p
  obtain ⟨found, ran, left, memory⟩ := c.run_of (origin ▸ ready.fitting) (origin ▸ ready.memory)
    plain.nonempty (origin ▸ plain.alike) run.shape split
  have finding := Conjugate.finds_of_run split ran
  rw [origin] at finding memory
  obtain ⟨-, -, -, w, v, finds⟩ := finding
  obtain ⟨a, moved, stepped⟩ := lineStep_of best plain given finds iterated
  refine ⟨found, iterated, { found with model := Vec.of (w + a • v) }, some a, moved, ?_, ?_, left,
    ⟨left.method, left.taken⟩, ?_⟩
  · rw [run_iteration (by simp [conjugate]) made]
    exact passed.trans (by rw [ran])
  · rw [next, if_pos conjugate, Update.run_bind_ok stepped]
    rfl
  · have same : found.task = run.task := finds.carries
    exact ⟨⟨by rw [same], by rw [same], Vec.length_of _⟩, memory⟩

theorem iterate_along (conjugate : run.method = .conjugate) (best : run.lineSearch = .bestBall)
    (plain : run.Plain source shuffles) (given : run.stepsizes ≠ [])
    {tolerance : α} (known : run.tolerance = some tolerance)
    (k left : Nat) {seed : Option (Snapshot α)} (baseline : Option (Snapshot α))
    (ready : run.Ready seed) (p : Progress α) :
    ∃ o q, (run.iterate source shuffles k seed baseline left).run p = (.ok o, q) ∧
      (tolerance ≤ 0 → o.iterations = k + left - 1) := by
  induction left generalizing k seed baseline p with
  | zero => exact ⟨_, p, rfl, fun _ => rfl⟩
  | succ left ih =>
    obtain ⟨found, iterated, resumed, stepsize, moved, finds, moves, before, after, later⟩ :=
      goes_along conjugate best plain given ready p
    obtain ⟨step, kept, -, -, change, -, runs⟩ :=
      iterate_of_found k left baseline finds moves before after known
    cases settled : run.settled step with
    | true =>
      rw [settled, if_pos rfl] at runs
      refine ⟨_, kept, runs, fun low => ?_⟩
      simp only [Run.settled, known, change, Option.any_some, Option.any_eq_true] at settled
      obtain ⟨x, changed, below⟩ := settled
      have above := Snapshot.changeFrom_nonneg changed
      simp only [decide_eq_true_eq] at below
      exact absurd (below.trans_le low) (not_lt.mpr above)
    | false =>
      rw [settled, if_neg Bool.false_ne_true] at runs
      obtain ⟨o, q, returned, all⟩ := ih (k + 1) (some found) later kept
      refine ⟨o, q, runs.trans returned, fun low => ?_⟩
      rw [all low]
      omega

theorem fit_follows_searches (run : Run α) (source : Source α) (shuffles : Shuffles)
    (previous : Option (Snapshot α)) (conjugate : run.method = .conjugate)
    (best : run.lineSearch = .bestBall)
    (shuffled : ∀ i, (shuffles i).Perm (List.range source.size)) {p q : Progress α}
    {result : Except Error (Outcome α)}
    (ended : (run.fit source shuffles previous).run p = (result, q)) :
    (∃ steps middle, run.Trace source shuffles 1 previous none p steps middle ∧
      q.log = p.log ++ Step.entries 1 steps ∧
      (∀ (j : Nat) (step next : Step α), steps[j]? = some step → steps[j + 1]? = some next →
        ∃ w v a search winner,
          run.Foretells source.examples step next w v a search winner) ∧
      (0 ∈ run.stepsizes →
        ((Step.entries 1 steps).map (·.loss)).Pairwise fun loss later => later ≤ loss)) ∧
    (run.Plain source shuffles → run.stepsizes ≠ [] → run.Ready previous →
      ∀ tolerance, run.tolerance = some tolerance →
        ∃ o, result = .ok o ∧ (tolerance ≤ 0 → o.iterations = run.maxIterations)) := by
  obtain ⟨steps, middle, trace, logged⟩ := iterate_log ended
  have each (j : Nat) (step next : Step α) (made : steps[j]? = some step)
      (followed : steps[j + 1]? = some next) :=
    trace.foretells conjugate best shuffled made followed
  refine ⟨⟨steps, middle, trace, by rw [logged, trace.log_eq], each, fun stays => ?_⟩, ?_⟩
  · have falls : IsTrans α fun loss later => later ≤ loss :=
      ⟨fun _ _ _ first second => second.trans first⟩
    rw [Step.map_entries (g := (·.found.loss)) fun _ _ => rfl, ← List.isChain_iff_pairwise,
      List.isChain_iff_getElem]
    intro j inside
    rw [List.length_map] at inside
    obtain ⟨w, v, a, search, winner, foretells⟩ := each j steps[j] steps[j + 1]
      (List.getElem?_eq_getElem _) (List.getElem?_eq_getElem inside)
    simpa using foretells.loss_le stays
  · intro plain given ready tolerance known
    obtain ⟨o, kept, returned, all⟩ := iterate_along conjugate best plain given known 1
      run.maxIterations none ready p
    have same := ended.symm.trans returned
    rw [Prod.mk.injEq] at same
    refine ⟨o, same.1, fun low => ?_⟩
    rw [all low]
    omega

theorem fit_follows_searches_pair :
    let run : Run ℝ := ⟨.unit .ridge, .conjugate, some 0, 2, some 2, .tree, .polakRibiere,
      .bestBall, [1, 1 / 2, 0], 100, 1000⟩
    let source : Source ℝ :=
      ⟨1, false, [⟨[1], .plain 1⟩, ⟨[2], .plain 3⟩], by simp [Example.dimension, Label.isSurvival]⟩
    ∃ o q, (run.fit source (fun _ => [1, 0]) none).run (.fresh true) = (.ok o, q) ∧
      ∃ first second, q.log.map (·.loss) = [first, second] ∧ second ≤ first := by
  intro run source
  have shuffled (_ : Nat) : [1, 0].Perm (List.range source.size) := .swap 0 1 []
  have plain : run.Plain source (fun _ => [1, 0]) :=
    ⟨by simp [run, Task.unit], ⟨2, rfl, by decide, shuffled⟩, rfl, rfl, by simp [source]⟩
  have ready : run.Ready none := ⟨trivial, ⟨nofun, nofun⟩⟩
  rcases ended : (run.fit source (fun _ => [1, 0]) none).run (.fresh true) with ⟨result, q⟩
  obtain ⟨⟨steps, -, -, logged, -, falls⟩, returns⟩ :=
    fit_follows_searches run source (fun _ => [1, 0]) none rfl rfl shuffled ended
  obtain ⟨o, rfl, all⟩ := returns plain (by simp [run]) ready 0 rfl
  have books := accounts_some shuffled plain.nonempty (o := o) rfl rfl rfl ended
  have two : (q.log.map (·.loss)).length = 2 := by
    have length := congrArg List.length books.numbered
    rw [List.length_map, List.length_range', all le_rfl] at length
    rw [List.length_map, length]
  obtain ⟨first, second, losses⟩ := List.length_eq_two.mp two
  refine ⟨o, q, rfl, first, second, losses, ?_⟩
  have pairs := falls (by simp [run])
  rw [logged] at losses
  change (Step.entries 1 steps).map (·.loss) = _ at losses
  rw [losses] at pairs
  simpa using pairs

end Run

end Passwise
