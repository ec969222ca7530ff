import Passwise.Proofs.Subgradient

set_option autoImplicit false

namespace Passwise

def Task.totalLoss {α : Type} [Scalar α] (task : Task α) (examples : List (Example α))
    (model : Vec α) : Except Error α := do
  let losses ← examples.mapM (task.objective.loss model)
  return losses.sum + (← task.penalty.loss task.regularization model)

theorem Search.make_ok {α : Type} [Scalar α] {task : Task α} {models : List (Vec α)}
    {stepsizes : Option (List α)} {s : Search α} (made : make task models stepsizes = .ok s) :
    s.task = task ∧ s.models = models ∧ s.stepsizes = stepsizes := by
  unfold make at made
  split_ifs at made
  cases made
  exact ⟨rfl, rfl, rfl⟩

theorem Search.exists_make {α : Type} [Scalar α] {task : Task α} {models : List (Vec α)}
    {stepsizes : List α} (some : models ≠ []) (paired : stepsizes.length = models.length)
    (separable : task.objective.usesRiskSet = false)
    (sized : ∀ model ∈ models, model.length = task.dimension) :
    ∃ s, make task models (.some stepsizes) = .ok s ∧ s.task = task ∧ s.models = models := by
  rw [make, dif_pos (List.length_pos_iff.mpr some), dif_pos (by simpa using paired),
    dif_pos separable, dif_pos sized]
  exact ⟨_, rfl, rfl, rfl⟩

variable {α : Type} [Exact α] {d : Nat}

theorem Objective.loss_of_alike {o : Objective} (separable : o.usesRiskSet = false)
    (w : Fin d → α) {e : Example α} (alike : e.Alike d false) :
    o.loss (Vec.of w) e = .ok (o.lossAt w (Vec.entries d e.features) e.label.number) := by
  have loss := loss_of separable w (Vec.entries d e.features) e.label.number
  rwa [Vec.of_entries alike.1, ← Label.eq_plain alike.2] at loss

theorem Task.totalLoss_of {task : Task α} (separable : task.objective.usesRiskSet = false)
    {examples : List (Example α)} (alike : ∀ e ∈ examples, e.Alike d false) (w : Fin d → α) :
    task.totalLoss examples (Vec.of w) =
      .ok (task.objective.lossOver task.regularization examples w) := by
  have losses := mapM_ok fun e member => Objective.loss_of_alike separable w (alike e member)
  rw [totalLoss, losses, ok_bind, penalty, Penalty.loss_of]
  rfl

namespace Search

structure LeastAt (values : List α) (i : Nat) (least : α) : Prop where
  here : values[i]? = some least
  finite : Scalar.isFinite least = true
  lower : ∀ (j : Nat) (x : α), values[j]? = some x → Scalar.isFinite x = true → least ≤ x
  earliest : ∀ (j : Nat) (x : α), j < i → values[j]? = some x → Scalar.isFinite x = true → least < x

omit [Exact α] in
theorem leastFinite?_snoc [Scalar α] (values : List α) (x : α) :
    leastFinite? (values ++ [x]) =
      if Scalar.isFinite x then
        match leastFinite? values with
        | none => some (values.length, x)
        | some (_, least) => if x < least then some (values.length, x) else leastFinite? values
      else leastFinite? values := by
  rw [leastFinite?, List.zipIdx_append, List.foldl_append, Nat.zero_add]
  rfl

omit [Exact α] in
theorem getElem?_snoc {values : List α} {x y : α} {j : Nat}
    (known : (values ++ [x])[j]? = some y) :
    values[j]? = some y ∨ (j = values.length ∧ y = x) := by
  rcases Nat.lt_trichotomy j values.length with inside | rfl | outside
  · rw [List.getElem?_append_left inside] at known
    exact .inl known
  · rw [List.getElem?_concat_length, Option.some.injEq] at known
    exact .inr ⟨rfl, known.symm⟩
  · rw [List.getElem?_eq_none (by simp; omega)] at known
    cases known

theorem LeastAt.snoc_of_not {values : List α} {i : Nat} {least x : α}
    (before : LeastAt values i least) (other : Scalar.isFinite x = true → least ≤ x) :
    LeastAt (values ++ [x]) i least where
  here := by
    have inside : i < values.length := (List.getElem?_eq_some_iff.mp before.here).1
    rw [List.getElem?_append_left inside, before.here]
  finite := before.finite
  lower j y known finite := by
    rcases getElem?_snoc known with earlier | ⟨-, rfl⟩
    · exact before.lower j y earlier finite
    · exact other finite
  earliest j y below known finite := by
    rcases getElem?_snoc known with earlier | ⟨rfl, -⟩
    · exact before.earliest j y below earlier finite
    · have inside : i < values.length := (List.getElem?_eq_some_iff.mp before.here).1
      omega

theorem LeastAt.snoc {values : List α} {x : α} (finite : Scalar.isFinite x = true)
    (above : ∀ (j : Nat) (y : α), values[j]? = some y → Scalar.isFinite y = true → x < y) :
    LeastAt (values ++ [x]) values.length x where
  here := List.getElem?_concat_length
  finite := finite
  lower j y known finite' := by
    rcases getElem?_snoc known with earlier | ⟨-, rfl⟩
    · exact (above j y earlier finite').le
    · exact le_rfl
  earliest j y below known finite' := by
    rcases getElem?_snoc known with earlier | ⟨rfl, -⟩
    · exact above j y earlier finite'
    · omega

theorem leastFinite?_spec (values : List α) :
    match leastFinite? values with
    | none => ∀ (j : Nat) (x : α), values[j]? = some x → Scalar.isFinite x = false
    | some (i, least) => LeastAt values i least := by
  -- From the back: the last value either takes the place of the one found so far or leaves it.
  induction values using List.reverseRecOn with
  | nil =>
    intro j x known
    simp at known
  | append_singleton values x ih =>
    rw [leastFinite?_snoc]
    rcases found : leastFinite? values with _ | ⟨i, least⟩
    · rw [found] at ih
      cases finite : Scalar.isFinite x with
      | false =>
        intro j y known
        rcases getElem?_snoc known with earlier | ⟨-, rfl⟩
        · exact ih j y earlier
        · exact finite
      | true =>
        refine LeastAt.snoc finite fun j y known finite' => ?_
        rw [ih j y known] at finite'
        cases finite'
    · rw [found] at ih
      cases finite : Scalar.isFinite x with
      | false => exact LeastAt.snoc_of_not ih (by simp [finite])
      | true =>
        by_cases less : x < least
        · simp only [if_true, if_pos less]
          exact LeastAt.snoc finite fun j y known finite' =>
            less.trans_le (ih.lower j y known finite')
        · simp only [if_true, if_neg less]
          exact LeastAt.snoc_of_not ih fun _ => not_lt.mp less

variable (s : Search α)

theorem getElem?_start (j : Nat) : s.start[j]? =
    s.models[j]?.map fun model => ⟨model, s.stepsizes.bind (·[j]?), 0, 0⟩ := by
  unfold start
  cases known : s.stepsizes with
  | none =>
    rw [List.getElem?_map]
    rfl
  | some steps =>
    have same := s.paired steps known
    by_cases inside : j < s.models.length
    · simp [inside, same]
    · simp [not_lt.mp inside]

def scores (examples : List (Example α)) : List α :=
  List.ofFn fun i : Fin s.start.length => s.task.objective.lossOver s.task.regularization examples
    (Vec.entries s.task.dimension (s.start.get i).model)

theorem sum_share (examples : List (Example α)) :
    (examples.map s.share).sum = (fun i => (examples.map fun e => s.task.objective.lossAt
      (Vec.entries s.task.dimension (s.start.get i).model)
        (Vec.entries s.task.dimension e.features) e.label.number).sum,
        (examples.length : Int)) := by
  induction examples with
  | nil => rfl
  | cons e examples ih =>
    rw [List.map_cons, List.sum_cons, ih]
    refine Prod.ext rfl ?_
    simp [share, add_comm]

theorem penalizedLosses_eq (examples : List (Example α)) :
    s.penalizedLosses (s.state (examples.map s.share).sum) = .ok (s.scores examples) := by
  refine mapM_ofFn_ok fun i => ?_
  have fits : s.start[i].model.length = s.task.dimension :=
    (s.start_fresh _ (List.getElem_mem i.isLt)).2.2
  have penalty := s.task.penalty.loss_of s.task.regularization
    (Vec.entries s.task.dimension s.start[i].model)
  rw [Vec.of_entries fits] at penalty
  simp only [penalty, ok_bind, sum_share]
  rfl

structure Won (examples : List (Example α)) (winner : Winner α) : Prop where
  model : s.models[winner.index]? = some winner.model
  stepsize : winner.stepsize = s.stepsizes.bind (·[winner.index]?)
  loss : s.task.totalLoss examples winner.model = .ok winner.loss
  least : ∀ (j : Nat) (model : Vec α) (loss : α), s.models[j]? = some model →
    s.task.totalLoss examples model = .ok loss →
    winner.loss ≤ loss ∧ (j < winner.index → winner.loss < loss)

variable {s} {examples : List (Example α)}

theorem getElem?_scores (alike : ∀ e ∈ examples, e.Alike s.task.dimension false) {j : Nat}
    {model : Vec α} (known : s.models[j]? = some model) :
    ∃ score, (s.scores examples)[j]? = some score ∧
      s.task.totalLoss examples model = .ok score := by
  have start := s.getElem?_start j
  rw [known, Option.map_some] at start
  obtain ⟨inside, same⟩ := List.getElem?_eq_some_iff.mp start
  have fits : model.length = s.task.dimension := s.uniform model (List.mem_of_getElem? known)
  refine ⟨s.task.objective.lossOver s.task.regularization examples
    (Vec.entries s.task.dimension model), ?_, ?_⟩
  · simp [scores, inside, same]
  · rw [← Task.totalLoss_of s.separable alike, Vec.of_entries fits]

theorem getElem?_models {j : Nat} {score : α}
    (known : (s.scores examples)[j]? = some score) (a : (Fin s.start.length → α) × Int) :
    ∃ model c, s.models[j]? = some model ∧ (s.state a)[j]? = some c ∧ c.model = model ∧
      c.stepsize = s.stepsizes.bind (·[j]?) := by
  obtain ⟨inside, -⟩ := List.getElem?_eq_some_iff.mp known
  rw [scores, List.length_ofFn] at inside
  have start := s.getElem?_start j
  rw [List.getElem?_eq_getElem inside] at start
  obtain ⟨model, found, same⟩ := Option.map_eq_some_iff.mp start.symm
  refine ⟨model, { s.start[j] with loss := a.1 ⟨j, inside⟩, rows := a.2 }, found, ?_, ?_, ?_⟩
  · simp [state, inside]
  · rw [← same]
  · rw [← same]

omit [Exact α] in
theorem result_of [Scalar α] {s : Search α} {state rest : List (Candidate α)}
    {first best : Candidate α} {losses : List α} {i : Nat} {loss : α}
    (whole : state = first :: rest) (rows : first.rows ≠ 0)
    (scored : s.penalizedLosses state = .ok losses)
    (least : leastFinite? losses = some (i, loss)) (here : state[i]? = some best) :
    s.result state = .ok (some ⟨i, best.model, best.stepsize, losses, best.rows, loss⟩) := by
  rw [whole] at scored here ⊢
  simp only [result, if_neg rows, scored, ok_bind, least, here]

variable [Exact.Finite α]

theorem result_state (nonempty : examples ≠ [])
    (alike : ∀ e ∈ examples, e.Alike s.task.dimension false) :
    ∃ winner, s.result (s.state (examples.map s.share).sum) = .ok (some winner) ∧
      s.Won examples winner := by
  let total := (examples.map s.share).sum
  obtain ⟨first, rest, whole⟩ : ∃ first rest, s.state total = first :: rest := by
    refine List.exists_cons_of_ne_nil (List.ne_nil_of_length_pos ?_)
    simpa [state] using List.length_pos_iff.mpr s.start_ne_nil
  have rows : first.rows ≠ 0 := by
    have member : first ∈ s.state total := by simp [whole]
    obtain ⟨i, rfl⟩ := List.mem_ofFn.mp member
    change (examples.map s.share).sum.2 ≠ 0
    rw [sum_share]
    simpa using nonempty
  have spec := leastFinite?_spec (s.scores examples)
  rcases least : leastFinite? (s.scores examples) with _ | ⟨i, loss⟩
  · rw [least] at spec
    obtain ⟨score, known, -⟩ := getElem?_scores alike (List.getElem?_eq_getElem s.nonempty)
    have finite := spec 0 score known
    rw [Exact.Finite.isFinite_true] at finite
    cases finite
  · rw [least] at spec
    obtain ⟨model, best, found, here, same, stepsize⟩ := getElem?_models spec.here total
    obtain ⟨score, known, lossed⟩ := getElem?_scores alike found
    rw [spec.here, Option.some.injEq] at known
    refine ⟨_, result_of whole rows (s.penalizedLosses_eq examples) least here, ?_⟩
    · subst same known
      refine ⟨found, stepsize, lossed, fun j model other known lossed => ?_⟩
      obtain ⟨score, place, total⟩ := getElem?_scores alike known
      rw [lossed, Except.ok.injEq] at total
      subst total
      have finite := Exact.Finite.isFinite_true other
      exact ⟨spec.lower j other place finite, fun below => spec.earliest j other below place finite⟩

theorem exists_won (s : Search α) (nonempty : examples ≠ [])
    (alike : ∀ e ∈ examples, e.Alike s.task.dimension false) :
    ∃ winner, s.Won examples winner ∧ ∀ shape parts, parts.flatten.Perm examples →
      s.machine.run shape parts = .ok (some winner) := by
  obtain ⟨winner, result, won⟩ := result_state nonempty alike
  refine ⟨winner, won, fun shape parts split => ?_⟩
  have all : ∀ e ∈ parts.flatten, e.Alike s.task.dimension false :=
    fun e member => alike e (split.mem_iff.mp member)
  rw [s.summing.run_eq shape all, Machine.reached_perm split, Machine.reached, if_neg nonempty]
  exact result

end Search

end Passwise
