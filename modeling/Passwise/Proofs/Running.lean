import Mathlib
import Passwise.Proofs.Latest
import Passwise.Proofs.Rounding

set_option autoImplicit false

namespace Passwise

namespace Cell

def whole? : Cell → Option Int
  | whole n => some n
  | _ => none

def wholeSum (cells : List Cell) : Int := (cells.map fun c => c.whole?.getD 0).sum

def realSum (cells : List Cell) : Float := cells.foldl (fun sum c => sum + c.number?.getD 0) 0

def total (cells : List Cell) : Cell :=
  if cells.all isWhole then whole (wholeSum cells) else real (realSum cells)

def IsCount (c : Cell) : Prop := ∃ x, c.number? = some x ∧ 0 ≤ x

theorem number?_real {x y : Float} : (real y).number? = some x ↔ y.isNaN = false ∧ y = x := by
  rw [number?]
  cases y.isNaN <;> simp only [Bool.false_eq_true, if_true, if_false, Option.some.injEq, true_and,
    reduceCtorEq, false_and]

theorem isMissing_of_number {c : Cell} {x : Float} (number : c.number? = some x) :
    c.isMissing = false := by
  cases c with
  | real y => exact (number?_real.mp number).1
  | missing => cases number
  | _ => rfl

end Cell

namespace Report

section Groups

variable {k : Keys} {rows : List (List Cell)} {run : List (List Cell)}

theorem ne_nil_of_mem_groups {same : List Cell → List Cell → Bool}
    (member : run ∈ groups same rows) : run ≠ [] := by
  rintro rfl
  fun_induction groups same rows <;> simp_all

theorem mem_of_mem_groups {same : List Cell → List Cell → Bool} {row : List Cell}
    (member : run ∈ groups same rows) (inside : row ∈ run) : row ∈ rows := by
  rw [← flatten_groups same rows]
  exact List.mem_flatten.mpr ⟨run, member, inside⟩

theorem sublist_of_mem_groups {same : List Cell → List Cell → Bool}
    (member : run ∈ groups same rows) : run.Sublist rows := by
  have inside := List.sublist_flatten_of_mem member
  rwa [flatten_groups] at inside

theorem groups_cons (same : List Cell → List Cell → Bool) (row : List Cell)
    (rest : List (List Cell)) :
    (groups same (row :: rest) = [row] :: groups same rest ∧
      ∀ next ∈ rest.head?, same row next = false) ∨
    ∃ next more others, groups same rest = (next :: more) :: others ∧ same row next = true ∧
      groups same (row :: rest) = (row :: next :: more) :: others := by
  have flat := flatten_groups same rest
  rw [groups]
  match known : groups same rest with
  | [] =>
    rw [known] at flat
    exact .inl ⟨rfl, flat ▸ nofun⟩
  | [] :: others =>
    have empty : [] ∈ groups same rest := by rw [known]; exact .head others
    exact absurd rfl (ne_nil_of_mem_groups empty)
  | (next :: more) :: others =>
    cases joins : same row next with
    | true => exact .inr ⟨next, more, others, rfl, joins, by simp [joins]⟩
    | false =>
      rw [known] at flat
      refine .inl ⟨by simp [joins], fun first member => ?_⟩
      rw [← flat] at member
      exact Option.some.inj member ▸ joins

theorem run_eq_of_mem_groups (ranked : ∀ row ∈ rows, k.Ranked row)
    (member : run ∈ groups k.sameRun rows) : ∀ a ∈ run, ∀ b ∈ run, k.run a = k.run b := by
  induction rows generalizing run with
  | nil => cases member
  | cons row rest ih =>
    have ih {run} : run ∈ groups k.sameRun rest → ∀ a ∈ run, ∀ b ∈ run, k.run a = k.run b :=
      ih fun row' member => ranked row' (.tail row member)
    rcases groups_cons k.sameRun row rest with
      ⟨alone, -⟩ | ⟨next, more, others, known, same, joined⟩
    · rw [alone] at member
      rcases List.mem_cons.mp member with rfl | later
      · simp
      · exact ih later
    · rw [joined] at member
      rw [known] at ih
      rcases List.mem_cons.mp member with rfl | later
      · have first : next ∈ rest :=
          mem_of_mem_groups (by rw [known]; exact .head others) (.head more)
        rw [Keys.sameRun_eq (ranked row (.head rest)) (ranked next (.tail row first)),
          decide_eq_true_iff] at same
        have joins : ∀ a ∈ row :: next :: more, k.run a = k.run row := by
          intro a inside
          rcases List.mem_cons.mp inside with rfl | later
          · rfl
          · exact (ih (.head others) a later next (.head more)).trans same.symm
        exact fun a left b right => (joins a left).trans (joins b right).symm
      · exact ih (.tail _ later)

theorem pairwise_groups (ranked : ∀ row ∈ rows, k.Ranked row)
    (ordered : rows.Pairwise fun a b => k.run a ≤ k.run b) :
    (groups k.sameRun rows).Pairwise fun g h => ∀ a ∈ g, ∀ b ∈ h, k.run a < k.run b := by
  induction rows with
  | nil => exact .nil
  | cons row rest ih =>
    have ranked' : ∀ row' ∈ rest, k.Ranked row' := fun row' member => ranked row' (.tail row member)
    have ih := ih ranked' ordered.of_cons
    have below := (List.pairwise_cons.mp ordered).1
    rcases groups_cons k.sameRun row rest with
      ⟨alone, apart⟩ | ⟨next, more, others, known, -, joined⟩
    · rw [alone]
      refine List.pairwise_cons.mpr ⟨fun h member a left b right => ?_, ih⟩
      rw [List.mem_singleton.mp left]
      cases rest with
      | nil => cases member
      | cons next rest =>
        have differ := apart next rfl
        rw [Keys.sameRun_eq (ranked row (.head _)) (ranked' next (.head rest)),
          decide_eq_false_iff_not] at differ
        refine ((below next (.head rest)).lt_of_ne differ).trans_le ?_
        rcases List.mem_cons.mp (mem_of_mem_groups member right) with rfl | later
        · exact le_rfl
        · exact (List.pairwise_cons.mp ordered.of_cons).1 b later
    · rw [joined]
      rw [known] at ih
      have first : next ∈ rest := mem_of_mem_groups (by rw [known]; exact .head others) (.head more)
      refine List.pairwise_cons.mpr ⟨fun h member a left b right => ?_, ih.of_cons⟩
      have apart := (List.pairwise_cons.mp ih).1 h member
      rcases List.mem_cons.mp left with rfl | later
      · exact (below next first).trans_lt (apart next (.head more) b right)
      · exact apart a later b right

end Groups

section Sums

variable {kind : Kind} {cells : List Cell} {k : Keys} {passes i : Nat}

inductive Countable : Kind → List Cell → Prop where
  | exactly {kind : Kind} (known : kind = .whole ∨ kind = .unsigned) (counts : List Nat) :
      Countable kind (counts.map fun n : Nat => .whole n)
  | rounded {kind : Kind} {cells : List Cell} (known : kind ≠ .whole) (known' : kind ≠ .unsigned)
      (broken : ∀ c ∈ cells, c.isWhole = false) (counts : ∀ c ∈ cells, c.IsCount) :
      Countable kind cells

theorem Countable.of_wholes (known : kind = .whole ∨ kind = .unsigned)
    (wholes : ∀ c ∈ cells, ∃ n : Nat, c = .whole n) : Countable kind cells := by
  have listed : cells ∈ Set.range (List.map fun n : Nat => Cell.whole n) := by
    rw [Set.range_list_map]
    exact fun c member => (wholes c member).imp fun n same => same.symm
  obtain ⟨counts, rfl⟩ := listed
  exact .exactly known counts

theorem addTo_whole (known : kind = .whole ∨ kind = .unsigned) {m n : Nat}
    (fits : m + n < 2 ^ 63) : addTo kind (.whole m) (.whole n) = .whole ((m + n : ℕ) : Int) := by
  rcases known with rfl | rfl
  · rw [addTo, Int.bmod_eq_of_le (by omega) (by simp [Word.size]; omega), Nat.cast_add]
  · rw [addTo, Int.emod_eq_of_lt (by omega) (by simp [Word.size]; omega), Nat.cast_add]

theorem addTo_rounded (known : kind ≠ .whole) (known' : kind ≠ .unsigned) (total c : Cell) :
    addTo kind total c = .real (total.number?.getD 0 + c.number?.getD 0) := by
  unfold addTo
  split
  · exact absurd rfl known
  · exact absurd rfl known'
  · rfl

theorem runningSums_whole (known : kind = .whole ∨ kind = .unsigned) (counts : List Nat) {n : Nat}
    (fits : n + counts.sum < 2 ^ 63) (inside : i < counts.length) :
    (runningSums kind (.whole n) (counts.map fun n : Nat => .whole n))[i]? =
      some (.whole ((n + (counts.take (i + 1)).sum : ℕ) : Int)) := by
  induction counts generalizing n i with
  | nil => cases inside
  | cons c rest ih =>
    rw [List.sum_cons] at fits
    have present : (Cell.whole c).isMissing = false := rfl
    rw [List.map_cons, runningSums, present, if_neg Bool.false_ne_true,
      addTo_whole known (by omega)]
    cases i with
    | zero => simp
    | succ i =>
      rw [List.getElem?_cons_succ, ih (by omega) (Nat.lt_of_succ_lt_succ inside),
        List.take_succ_cons, List.sum_cons, Nat.add_assoc]

theorem runningSums_rounded (known : kind ≠ .whole) (known' : kind ≠ .unsigned)
    (counts : ∀ c ∈ cells, c.IsCount) {start : Cell} {x : Float} (number : start.number? = some x)
    (above : 0 ≤ x) (inside : i < cells.length) :
    (runningSums kind start cells)[i]? =
      some (.real ((cells.take (i + 1)).foldl (fun sum c => sum + c.number?.getD 0) x)) := by
  induction cells generalizing start x i with
  | nil => cases inside
  | cons c rest ih =>
    obtain ⟨y, number', above'⟩ := counts c (.head rest)
    rw [runningSums, Cell.isMissing_of_number number', if_neg Bool.false_ne_true,
      addTo_rounded known known', number, number', Option.getD_some, Option.getD_some]
    have grown := Double.le_add above above'
    cases i with
    | zero => simp [number']
    | succ i =>
      have next : (Cell.real (x + y)).number? = some (x + y) :=
        Cell.number?_real.mpr ⟨(Double.numbers_of_le grown).2, rfl⟩
      rw [List.getElem?_cons_succ, ih (fun c member => counts c (.tail _ member)) next
          (Double.le_trans above grown) (Nat.lt_of_succ_lt_succ inside),
        List.take_succ_cons, List.foldl_cons, number', Option.getD_some]

theorem wholeSum_counts (counts : List Nat) :
    Cell.wholeSum (counts.map fun n : Nat => .whole n) = (counts.sum : ℕ) := by
  rw [Cell.wholeSum, List.map_map, Nat.cast_list_sum]
  rfl

theorem wholeSum_broken (broken : ∀ c ∈ cells, c.isWhole = false) : Cell.wholeSum cells = 0 := by
  refine List.sum_eq_zero fun n member => ?_
  obtain ⟨c, inside, rfl⟩ := List.mem_map.mp member
  cases c with
  | whole n => cases broken _ inside
  | _ => rfl

theorem total_whole (counts : List Nat) :
    Cell.total (counts.map fun n : Nat => .whole n) = .whole (counts.sum : ℕ) := by
  rw [Cell.total, wholeSum_counts, if_pos]
  simp [Cell.isWhole]

theorem total_rounded (broken : ∀ c ∈ cells, c.isWhole = false) (given : cells ≠ []) :
    Cell.total cells = .real (Cell.realSum cells) := by
  obtain ⟨c, member⟩ := List.exists_mem_of_ne_nil cells given
  refine if_neg fun every => ?_
  have differ := broken c member
  rw [List.all_eq_true.mp every c member] at differ
  cases differ

theorem runningSums_eq (countable : Countable kind cells) (fits : Cell.wholeSum cells < 2 ^ 63)
    (inside : i < cells.length) :
    (runningSums kind (.whole 0) cells)[i]? = some (Cell.total (cells.take (i + 1))) := by
  cases countable with
  | exactly known counts =>
    rw [wholeSum_counts] at fits
    rw [List.length_map] at inside
    have sums := runningSums_whole (n := 0) known counts (by omega) inside
    rw [Nat.zero_add] at sums
    rw [← List.map_take, total_whole, ← sums]
    rfl
  | rounded known known' broken counts =>
    have whole : (Cell.whole 0).number? = some 0 := rfl
    rw [runningSums_rounded known known' counts whole (by decide) inside, total_rounded,
      Cell.realSum]
    · exact fun c member => broken c (List.mem_of_mem_take member)
    · exact List.ne_nil_of_length_pos (by rw [List.length_take]; omega)

theorem length_runningSums (kind : Kind) (start : Cell) (cells : List Cell) :
    (runningSums kind start cells).length = cells.length := by
  fun_induction runningSums kind start cells <;> simp_all

theorem Countable.of_subset {part : List Cell} (countable : Countable kind cells)
    (inside : part ⊆ cells) : Countable kind part := by
  cases countable with
  | exactly known counts =>
    refine .of_wholes known fun c member => ?_
    obtain ⟨n, -, same⟩ := List.mem_map.mp (inside member)
    exact ⟨n, same.symm⟩
  | rounded known known' broken counts =>
    exact .rounded known known' (fun c member => broken c (inside member))
      fun c member => counts c (inside member)

theorem wholeSum_le_of_sublist {part : List Cell} (countable : Countable kind cells)
    (inside : part.Sublist cells) : Cell.wholeSum part ≤ Cell.wholeSum cells := by
  cases countable with
  | exactly known counts =>
    obtain ⟨counts', fewer, rfl⟩ := List.sublist_map_iff.mp inside
    rw [wholeSum_counts, wholeSum_counts]
    exact_mod_cast fewer.sum_le_sum fun n _ => Nat.zero_le n
  | rounded known known' broken counts =>
    rw [wholeSum_broken fun c member => broken c (inside.subset member), wholeSum_broken broken]

theorem le_foldl_counts {x : Float} (counts : ∀ c ∈ cells, c.IsCount) (above : 0 ≤ x) :
    x ≤ cells.foldl (fun sum c => sum + c.number?.getD 0) x := by
  induction cells generalizing x with
  | nil => exact Double.le_self (Double.numbers_of_le above).2
  | cons c rest ih =>
    obtain ⟨y, number, above'⟩ := counts c (.head rest)
    have grown := Double.le_add above above'
    rw [List.foldl_cons, number, Option.getD_some]
    exact Double.le_trans grown
      (ih (fun c member => counts c (.tail _ member)) (Double.le_trans above grown))

theorem total_mono {more : List Cell} (countable : Countable kind (cells ++ more))
    (given : cells ≠ []) : ∃ x y, (Cell.total cells).number? = some x ∧
      (Cell.total (cells ++ more)).number? = some y ∧ x ≤ y := by
  generalize joined : cells ++ more = both at countable
  cases countable with
  | exactly known counts =>
    obtain ⟨left, right, rfl, rfl, rfl⟩ := List.append_eq_map_iff.mp joined
    rw [total_whole, total_whole, List.sum_append]
    exact ⟨_, _, rfl, rfl, Double.ofInt_mono (by omega)⟩
  | rounded known known' broken counts =>
    subst joined
    have left := fun c member => counts c (List.mem_append_left more member)
    have start : 0 ≤ Cell.realSum cells := le_foldl_counts left (by decide)
    have grown : Cell.realSum cells ≤ Cell.realSum (cells ++ more) := by
      rw [Cell.realSum, Cell.realSum, List.foldl_append]
      exact le_foldl_counts (fun c member => counts c (List.mem_append_right cells member)) start
    obtain ⟨number, number'⟩ := Double.numbers_of_le grown
    rw [total_rounded (fun c member => broken c (List.mem_append_left more member)) given,
      total_rounded broken (List.append_ne_nil_of_left_ne_nil given more)]
    exact ⟨_, _, if_neg (Bool.not_eq_true _ ▸ number), if_neg (Bool.not_eq_true _ ▸ number'), grown⟩

end Sums

section Accumulated

variable {k : Keys} {passes i j : Nat} {rows : List (List Cell)} {sums : List Cell} {kind : Kind}

def upTo (k : Keys) (passes : Nat) (rows : List (List Cell)) (i : Nat) (row : List Cell) :
    List Cell :=
  ((rows.take (i + 1)).filter fun other => decide (k.run other = k.run row)).map
    (Table.cell · passes)

structure Accumulated (k : Keys) (passes : Nat) (rows : List (List Cell)) (sums : List Cell) :
    Prop where
  length : sums.length = rows.length
  sum : ∀ i row, rows[i]? = some row → sums[i]? = some (Cell.total (upTo k passes rows i row))

theorem Accumulated.unique {sums' : List Cell} (first : Accumulated k passes rows sums)
    (second : Accumulated k passes rows sums') : sums = sums' := by
  refine List.ext_getElem? fun i => ?_
  cases known : rows[i]? with
  | none =>
    have outside := List.getElem?_eq_none_iff.mp known
    rw [List.getElem?_eq_none (first.length ▸ outside),
      List.getElem?_eq_none (second.length ▸ outside)]
  | some row => rw [first.sum i row known, second.sum i row known]

theorem accumulated_flatMap {runs : List (List (List Cell))}
    (one : ∀ run ∈ runs, ∀ a ∈ run, ∀ b ∈ run, k.run a = k.run b)
    (apart : runs.Pairwise fun g h => ∀ a ∈ g, ∀ b ∈ h, k.run a < k.run b)
    (sumsOf : List (List Cell) → List Cell)
    (each : ∀ run ∈ runs, (sumsOf run).length = run.length ∧ ∀ i < run.length,
      (sumsOf run)[i]? = some (Cell.total ((run.take (i + 1)).map (Table.cell · passes)))) :
    Accumulated k passes runs.flatten (runs.flatMap sumsOf) := by
  induction runs with
  | nil => exact ⟨rfl, nofun⟩
  | cons run runs ih =>
    obtain ⟨count, first⟩ := each run (.head runs)
    have rest := ih (fun r member => one r (.tail run member)) apart.of_cons
      fun r member => each r (.tail run member)
    rw [List.flatten_cons, List.flatMap_cons]
    refine ⟨by rw [List.length_append, List.length_append, count, rest.length], ?_⟩
    intro i row known
    rcases Nat.lt_or_ge i run.length with inside | outside
    · rw [List.getElem?_append_left inside] at known
      rw [List.getElem?_append_left (count ▸ inside), first i inside, upTo,
        List.take_append_of_le_length inside, List.filter_eq_self.mpr]
      intro other member
      exact decide_eq_true (one run (.head runs) other (List.mem_of_mem_take member) row
        (List.mem_of_getElem? known))
    · rw [List.getElem?_append_right outside] at known
      obtain ⟨other, member, within⟩ := List.mem_flatten.mp (List.mem_of_getElem? known)
      have none : run.filter (fun a => decide (k.run a = k.run row)) = [] := by
        refine List.filter_eq_nil_iff.mpr fun a left same => ?_
        have below := (List.pairwise_cons.mp apart).1 other member a left row within
        exact below.ne (of_decide_eq_true same)
      rw [List.getElem?_append_right (count ▸ outside), count, rest.sum _ row known, upTo, upTo,
        List.take_append, List.take_of_length_le (Nat.le_succ_of_le outside), List.filter_append,
        none, List.nil_append, Nat.succ_sub outside]

def sumsOf (k : Keys) (passes : Nat) (kind : Kind) (rows : List (List Cell)) : List Cell :=
  (groups k.sameRun rows).flatMap fun run =>
    runningSums kind (.whole 0) (run.map (Table.cell · passes))

theorem accumulated_sumsOf (ranked : ∀ row ∈ rows, k.Ranked row)
    (ordered : rows.Pairwise fun a b => k.run a ≤ k.run b)
    (countable : Countable kind (rows.map (Table.cell · passes)))
    (fits : ∀ run, Cell.wholeSum ((rows.filter fun row => decide (k.run row = run)).map
      (Table.cell · passes)) < 2 ^ 63) :
    Accumulated k passes rows (sumsOf k passes kind rows) := by
  suffices each : ∀ run ∈ groups k.sameRun rows,
      (runningSums kind (.whole 0) (run.map (Table.cell · passes))).length = run.length ∧
        ∀ i < run.length, (runningSums kind (.whole 0) (run.map (Table.cell · passes)))[i]? =
          some (Cell.total ((run.take (i + 1)).map (Table.cell · passes))) by
    have flat := accumulated_flatMap (fun run member => run_eq_of_mem_groups ranked member)
      (pairwise_groups ranked ordered) _ each
    rwa [flatten_groups] at flat
  intro run member
  refine ⟨by rw [length_runningSums, List.length_map], fun i inside => ?_⟩
  have within := sublist_of_mem_groups member
  rw [List.map_take]
  refine runningSums_eq (countable.of_subset (within.map _).subset) ?_ (by rwa [List.length_map])
  obtain ⟨first, present⟩ := List.exists_mem_of_ne_nil run (ne_nil_of_mem_groups member)
  have inside : run.Sublist (rows.filter fun row => decide (k.run row = k.run first)) := by
    have part := within.filter fun row => decide (k.run row = k.run first)
    rwa [List.filter_eq_self.mpr] at part
    exact fun a left => decide_eq_true (run_eq_of_mem_groups ranked member a left first present)
  refine (wholeSum_le_of_sublist (countable.of_subset ?_) (inside.map _)).trans_lt
    (fits (k.run first))
  exact (List.filter_sublist.map _).subset

theorem Accumulated.mono {a b : List Cell} (accumulated : Accumulated k passes rows sums)
    (countable : Countable kind (rows.map (Table.cell · passes))) (known : rows[i]? = some a)
    (known' : rows[j]? = some b) (order : i ≤ j) (same : k.run a = k.run b) :
    ∃ x y, sums[i]?.bind Cell.number? = some x ∧ sums[j]?.bind Cell.number? = some y ∧ x ≤ y := by
  obtain ⟨more, joined⟩ : upTo k passes rows i a <+: upTo k passes rows j b := by
    rw [upTo, upTo, same]
    exact ((List.take_prefix_take_left (Nat.succ_le_succ order)).filter _).map _
  have given : upTo k passes rows i a ≠ [] := by
    have inside : a ∈ rows.take (i + 1) := List.mem_of_getElem? (i := i) <| by
      rw [List.getElem?_take_of_lt i.lt_succ_self, known]
    exact List.ne_nil_of_mem
      (List.mem_map_of_mem (List.mem_filter.mpr ⟨inside, decide_eq_true rfl⟩))
  have within : (upTo k passes rows j b).Sublist (rows.map (Table.cell · passes)) :=
    (List.filter_sublist.trans (List.take_sublist _ _)).map _
  rw [accumulated.sum i a known, accumulated.sum j b known', ← joined]
  exact total_mono (joined ▸ countable.of_subset within.subset) given

end Accumulated

end Report

end Passwise
