import Passwise.Proofs.Coordinates
import Passwise.Proofs.Reals
import Passwise.Proofs.Reduction
import Passwise.Incremental
import Mathlib.Data.List.ReduceOption

set_option autoImplicit false

namespace Passwise

namespace Incremental

variable {α : Type} [Exact α] {d : Nat}

structure Poolable (d : Nat) (s : PassState α) : Prop where
  dimension : s.task.dimension = d
  model : s.model.length = d
  rows : 0 ≤ s.rows

def rowSum (states : List (PassState α)) : Int := (states.map (·.rows)).sum

def lossSum (states : List (PassState α)) : α := (states.map (·.totals.loss)).sum

def modelSum (d : Nat) (states : List (PassState α)) : Fin d → α :=
  (states.map fun s => (s.rows : α) • Vec.entries d s.model).sum

-- The mean of the models by rows, all losses and all rows; everything else is the first state's.
def pool (d : Nat) (first : PassState α) (states : List (PassState α)) : PassState α :=
  { first with
    model := if rowSum states = 0 then first.model
      else Vec.of ((rowSum states : α)⁻¹ • modelSum d states)
    totals := { Totals.zero with loss := lossSum states }
    rows := rowSum states }

def pooled (d : Nat) : List (PassState α) → Option (PassState α)
  | [] => none
  | [s] => some s
  | s :: t :: rest => some (pool d s (s :: t :: rest))

theorem rowSum_append (xs ys : List (PassState α)) :
    rowSum (xs ++ ys) = rowSum xs + rowSum ys := by
  simp [rowSum]

theorem lossSum_append (xs ys : List (PassState α)) :
    lossSum (xs ++ ys) = lossSum xs + lossSum ys := by
  simp [lossSum]

theorem modelSum_append (xs ys : List (PassState α)) :
    modelSum d (xs ++ ys) = modelSum d xs + modelSum d ys := by
  simp [modelSum]

variable {states : List (PassState α)}

theorem rowSum_nonneg (all : ∀ s ∈ states, Poolable d s) : 0 ≤ rowSum states := by
  refine List.sum_nonneg fun n member => ?_
  obtain ⟨s, inside, rfl⟩ := List.mem_map.mp member
  exact (all s inside).rows

theorem rows_eq_zero (all : ∀ s ∈ states, Poolable d s) (none : rowSum states = 0) :
    ∀ s ∈ states, s.rows = 0 := by
  induction states with
  | nil => simp
  | cons s rest ih =>
    have first := (all s (by simp)).rows
    have others := rowSum_nonneg fun x (member : x ∈ rest) => all x (by simp [member])
    have sum : s.rows + rowSum rest = 0 := none
    intro x member
    rcases List.mem_cons.mp member with rfl | later
    · omega
    · exact ih (fun y inside => all y (by simp [inside])) (by omega) x later

theorem modelSum_eq_zero (all : ∀ s ∈ states, Poolable d s) (none : rowSum states = 0) :
    modelSum d states = 0 := by
  refine List.sum_eq_zero fun v member => ?_
  obtain ⟨s, inside, rfl⟩ := List.mem_map.mp member
  simp [rows_eq_zero all none s inside]

theorem pooled_of_more {first : PassState α} {rest : List (PassState α)} (more : rest ≠ []) :
    pooled d (first :: rest) = some (pool d first (first :: rest)) := by
  cases rest with
  | nil => exact absurd rfl more
  | cons next rest => rfl

structure Pools (d : Nat) (first : PassState α) (rest : List (PassState α)) (p : PassState α) :
    Prop where
  task : p.task = first.task
  memory : p.memory = first.memory
  rows : p.rows = rowSum (first :: rest)
  loss : p.totals.loss = lossSum (first :: rest)
  size : p.model.length = d
  weighted : (p.rows : α) • Vec.entries d p.model = modelSum d (first :: rest)
  stays : p.rows = 0 → p.model = first.model

theorem pools_pooled {first : PassState α} {rest : List (PassState α)}
    (all : ∀ s ∈ first :: rest, Poolable d s) :
    ∃ p, pooled d (first :: rest) = some p ∧ Pools d first rest p := by
  have size := (all first (by simp)).model
  cases rest with
  | nil => exact ⟨first, rfl, rfl, rfl, by simp [rowSum], by simp [lossSum], size,
      by simp [modelSum], fun _ => rfl⟩
  | cons next rest =>
    refine ⟨_, rfl, rfl, rfl, rfl, rfl, ?_, ?_, fun none => if_pos none⟩
    · dsimp only [pool]
      split_ifs
      · exact size
      · simp
    · dsimp only [pool]
      split_ifs with none
      · rw [none, modelSum_eq_zero all none]
        simp
      · have some : (rowSum (first :: next :: rest) : α) ≠ 0 := by exact_mod_cast none
        rw [Vec.entries_of, smul_smul, mul_inv_cancel₀ some, one_smul]

theorem meanModel_of {left right : PassState α} (fitsLeft : left.model.length = d)
    (fitsRight : right.model.length = d) :
    meanModel left right = .ok (if left.rows + right.rows = 0 then left.model
      else Vec.of (((left.rows + right.rows : Int) : α)⁻¹ •
        ((left.rows : α) • Vec.entries d left.model +
          (right.rows : α) • Vec.entries d right.model))) := by
  by_cases none : left.rows + right.rows = 0
  · simp [meanModel, none]
  · simp only [meanModel, if_neg none]
    rw [← Vec.of_entries fitsLeft, ← Vec.of_entries fitsRight]
    simp

theorem joined_pools {x y p q : PassState α} {xs ys : List (PassState α)}
    (left : ∀ s ∈ x :: xs, Poolable d s) (right : ∀ s ∈ y :: ys, Poolable d s)
    (before : Pools d x xs p) (after : Pools d y ys q) :
    let whole := pool d x (x :: xs ++ y :: ys)
    p.rows + q.rows = whole.rows ∧ joined p q = .ok (whole.model, whole.totals) := by
  intro whole
  have rows : p.rows + q.rows = rowSum (x :: xs ++ y :: ys) := by
    rw [rowSum_append, before.rows, after.rows]
  have loss : p.totals.loss + q.totals.loss = lossSum (x :: xs ++ y :: ys) := by
    rw [lossSum_append, before.loss, after.loss]
  have model : meanModel p q = .ok whole.model := by
    rw [meanModel_of before.size after.size, before.weighted, after.weighted, rows,
      ← modelSum_append]
    by_cases none : rowSum (x :: xs ++ y :: ys) = 0
    · have noneLeft : p.rows = 0 := by
        have inLeft := rowSum_nonneg left
        have inRight := rowSum_nonneg right
        have together := rowSum_append (x :: xs) (y :: ys)
        rw [before.rows]
        omega
      simp only [whole, pool, if_pos none, before.stays noneLeft]
    · simp only [whole, pool, if_neg none]
  refine ⟨rows, ?_⟩
  rw [joined, model, ok_bind, loss]
  rfl

theorem merge_pooled (i : Incremental α) {xs ys : List (PassState α)}
    (left : ∀ s ∈ xs, Poolable d s) (right : ∀ s ∈ ys, Poolable d s) :
    i.machine.merge (pooled d xs) (pooled d ys) = .ok (pooled d (xs ++ ys)) := by
  cases xs with
  | nil => rfl
  | cons x xs =>
    cases ys with
    | nil => simp [pooled]
    | cons y ys =>
      obtain ⟨p, pooledLeft, before⟩ := pools_pooled left
      obtain ⟨q, pooledRight, after⟩ := pools_pooled right
      have sameDimension : x.task.dimension = q.task.dimension := by
        rw [after.task, (left x (by simp)).dimension, (right y (by simp)).dimension]
      obtain ⟨rows, both⟩ := joined_pools left right before after
      rw [pooledLeft, pooledRight, List.cons_append, pooled_of_more (by simp)]
      simp only [Machine.merge, machine, Strategy.machine, Strategy.join, if_pos sameDimension,
        strategy, both, before.task, before.memory, rows]
      rfl

theorem eval_pooled (i : Incremental α) (t : MergeTree (Option (PassState α)))
    (all : ∀ s ∈ t.leaves.reduceOption, Poolable d s) :
    t.eval i.machine.merge = .ok (pooled d t.leaves.reduceOption) := by
  induction t with
  | leaf value => cases value <;> rfl
  | node left right ihLeft ihRight =>
    rw [MergeTree.leaves, List.reduceOption_append] at all ⊢
    have fitsLeft : ∀ s ∈ left.leaves.reduceOption, Poolable d s :=
      fun s member => all s (by simp [member])
    have fitsRight : ∀ s ∈ right.leaves.reduceOption, Poolable d s :=
      fun s member => all s (by simp [member])
    rw [MergeTree.eval, ihLeft fitsLeft, ihRight fitsRight]
    exact merge_pooled i fitsLeft fitsRight

def Stands (d : Nat) (s : Option (PassState α)) (states : List (PassState α)) : Prop :=
  s = pooled d states ∧ ∀ x ∈ states, Poolable d x

theorem merge_stands (i : Incremental α) :
    Shape.Respects (Stands d) i.machine.merge Shape.append := by
  rintro _ _ xs ys ⟨rfl, left⟩ ⟨rfl, right⟩
  refine ⟨_, _, merge_pooled i left right, rfl, rfl, fun x member => ?_⟩
  rcases List.mem_append.mp member with inside | inside
  · exact left x inside
  · exact right x inside

theorem flatten_toList (states : List (Option (PassState α))) :
    (states.map Option.toList).flatten = states.reduceOption := by
  induction states with
  | nil => rfl
  | cons s states ih => cases s <;> simp [ih]

theorem combine_pooled (i : Incremental α) (shape : Shape) {states : List (Option (PassState α))}
    (given : states ≠ []) (all : ∀ s ∈ states.reduceOption, Poolable d s) :
    i.machine.combine shape states = .ok (pooled d states.reduceOption) := by
  have related : List.Forall₂ (Stands d) states (states.map Option.toList) := by
    rw [List.forall₂_map_right_iff, List.forall₂_same]
    intro s member
    cases s with
    | none => exact ⟨rfl, by simp⟩
    | some s => exact ⟨rfl, by simpa using all s (List.reduceOption_mem_iff.mpr member)⟩
  obtain ⟨value, value', done, done', last⟩ := Shape.reduce_related (merge_stands i) shape related
  rw [Shape.reduce_append, if_neg (by simpa using given), flatten_toList] at done'
  cases done'
  cases last with
  | some stands =>
    rw [Machine.combine, done, stands.1]
    rfl

theorem merged_eq_weighted_mean (i : Incremental α) {first : PassState α}
    {rest : List (PassState α)} (all : ∀ s ∈ first :: rest, Poolable d s) :
    ∃ merged,
      (∀ t : MergeTree (Option (PassState α)), t.leaves.reduceOption = first :: rest →
        t.eval i.machine.merge = .ok (some merged)) ∧
      (∀ shape states, states.reduceOption = first :: rest →
        i.machine.combine shape states = .ok (some merged)) ∧
      merged.rows = rowSum (first :: rest) ∧
      merged.totals.loss = lossSum (first :: rest) ∧
      (0 < rowSum (first :: rest) → merged.model =
        Vec.of ((rowSum (first :: rest) : α)⁻¹ • modelSum d (first :: rest))) ∧
      ((∀ s ∈ first :: rest, s.rows = 0) → merged.model = first.model) := by
  obtain ⟨merged, made, pools⟩ := pools_pooled all
  refine ⟨merged, ?_, ?_, pools.rows, pools.loss, ?_, ?_⟩
  · intro t same
    rw [eval_pooled i t (same ▸ all), same, made]
  · intro shape states same
    have given : states ≠ [] := by
      rintro rfl
      cases same
    rw [combine_pooled i shape given (same ▸ all), same, made]
  · intro positive
    have unit : ((rowSum (first :: rest) : Int) : α) ≠ 0 := by exact_mod_cast positive.ne'
    rw [← pools.weighted, pools.rows, smul_smul, inv_mul_cancel₀ unit, one_smul,
      Vec.of_entries pools.size]
  · intro none
    refine pools.stays ?_
    rw [pools.rows]
    exact List.sum_eq_zero fun n member => by
      obtain ⟨s, inside, rfl⟩ := List.mem_map.mp member
      exact none s inside

theorem merged_eq_weighted_mean_halves :
    let i : Incremental ℝ := ⟨⟨.unit .ridge, none⟩, rfl⟩
    let state (model loss : ℝ) (rows : Int) : PassState ℝ :=
      ⟨.unit .ridge, [model], .fresh, { Totals.zero with loss := loss }, rows⟩
    let (a, b, c) := (state 1 2 1, state 5 0 0, state 2 4 3)
    ∃ merged,
      (MergeTree.node (.leaf (some a)) (.node (.node (.leaf none) (.leaf (some b)))
        (.leaf (some c)))).eval i.machine.merge = .ok (some merged) ∧
      i.machine.combine .tree [some a, some b, none, some c] = .ok (some merged) ∧
      merged.rows = 4 ∧ merged.totals.loss = 6 ∧ merged.model = [7 / 4] := by
  intro i state
  have all : ∀ s ∈ [state 1 2 1, state 5 0 0, state 2 4 3], Poolable 1 s := by
    simp only [List.forall_mem_cons, List.not_mem_nil, false_implies, implies_true, and_true]
    exact ⟨⟨rfl, rfl, by decide⟩, ⟨rfl, rfl, by decide⟩, ⟨rfl, rfl, by decide⟩⟩
  obtain ⟨merged, trees, shapes, rows, loss, mean, -⟩ := merged_eq_weighted_mean i all
  refine ⟨merged, trees _ rfl, shapes .tree _ rfl, rows, ?_, ?_⟩
  · rw [loss]
    norm_num [lossSum, state]
  · have total : rowSum [state 1 2 1, state 5 0 0, state 2 4 3] = 4 := rfl
    rw [mean (by rw [total]; decide), total]
    norm_num [modelSum, state, Vec.of, Vec.entries]

end Incremental

end Passwise
