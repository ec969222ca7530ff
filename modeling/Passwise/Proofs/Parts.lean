import Passwise.Proofs.Partition

set_option autoImplicit false

namespace Passwise.Source

section Cutting

variable {β : Type}

-- The length of a part by its place: an even share, and one more as long as some are left over.
def share (total parts k : Nat) : Nat := total / parts + if k < total % parts then 1 else 0

theorem share_eq {parts rest : Nat} (even k : Nat) (small : rest < parts) :
    share (even * parts + rest) parts k = even + if k < rest then 1 else 0 := by
  have quotient : (even * parts + rest) / parts = even := by
    rw [Nat.add_comm, Nat.add_mul_div_right _ _ (by omega), Nat.div_eq_of_lt small, Nat.zero_add]
  have remainder : (even * parts + rest) % parts = rest := by
    rw [Nat.add_comm, Nat.add_mul_mod_self_right, Nat.mod_eq_of_lt small]
  rw [share, quotient, remainder]

theorem share_antitone (total parts : Nat) : Antitone (share total parts) := by
  intro j k order
  unfold share
  split_ifs <;> omega

theorem share_le_succ (total parts j k : Nat) : share total parts j ≤ share total parts k + 1 := by
  unfold share
  split_ifs <;> omega

theorem lengths_cut (n : Nat) (items : List β) :
    (cut n items).map List.length = (List.range n).map (share items.length n) := by
  induction n generalizing items with
  | zero => rfl
  | succ n ih =>
    obtain ⟨even, rest, small, total⟩ : ∃ even rest, rest < n + 1 ∧
        items.length = even * (n + 1) + rest :=
      ⟨_, _, Nat.mod_lt _ n.succ_pos, (Nat.div_add_mod' _ _).symm⟩
    have first : (items.length + n) / (n + 1) = even + if 0 < rest then 1 else 0 := by
      rw [total, Nat.div_eq_iff (by omega)]
      split_ifs <;> lia
    -- Without the first part one less is left over, unless nothing was.
    have later : items.length - (items.length + n) / (n + 1) = even * n + (rest - 1) := by
      rw [first, total]
      split_ifs <;> lia
    have within : even + (if 0 < rest then 1 else 0) ≤ even * (n + 1) + rest := by
      split_ifs <;> lia
    rw [cut, List.map_cons, ih, List.length_take, List.length_drop, later, List.range_succ_eq_map,
      List.map_cons, List.map_map, first, total, share_eq even 0 small, Nat.min_eq_left within]
    refine congrArg _ (List.map_congr_left fun k inside => ?_)
    rw [List.mem_range] at inside
    rw [share_eq even k (by omega), Function.comp_apply, share_eq even _ small]
    split_ifs <;> omega

end Cutting

variable {α : Type}

def labelAt (numbers : List α) (events : Option (List Bool)) (i : Nat) : Option (Label α) :=
  match events with
  | none => return .plain (← numbers[i]?)
  | some events => return .survival (← numbers[i]?) (← events[i]?)

def rowAt (features : List (Vec α)) (numbers : List α) (events : Option (List Bool)) (i : Nat) :
    Option (Example α) :=
  return ⟨← features[i]?, ← labelAt numbers events i⟩

theorem examples_of_make {dimension : Nat} {survival : Bool} {examples : List (Example α)}
    {source : Source α} (made : make dimension survival examples = .ok source) :
    source.examples = examples := by
  unfold make at made
  split_ifs at made
  cases made
  rfl

variable {dimension : Nat} {features : List (Vec α)} {numbers : List α}
  {events : Option (List Bool)} {source : Source α}

theorem getElem?_ofColumns (made : ofColumns dimension features numbers events = .ok source)
    (i : Nat) : source.examples[i]? = rowAt features numbers events i := by
  unfold ofColumns at made
  split_ifs at made
  cases events with
  | none =>
    rw [examples_of_make made, List.getElem?_zipWith, rowAt, labelAt]
    cases features[i]? <;> cases numbers[i]? <;> rfl
  | some events =>
    dsimp only at made
    split_ifs at made
    rw [examples_of_make made, List.getElem?_zipWith, List.getElem?_zipWith, rowAt, labelAt]
    cases features[i]? <;> cases numbers[i]? <;> cases events[i]? <;> rfl

theorem size_of_ofColumns (made : ofColumns dimension features numbers events = .ok source) :
    source.size = features.length := by
  unfold ofColumns at made
  split_ifs at made with numbered
  rw [bne_iff_ne, ne_eq, not_not] at numbered
  cases events with
  | none => simp [size, examples_of_make made, numbered]
  | some events =>
    dsimp only at made
    split_ifs at made with flagged
    rw [bne_iff_ne, ne_eq, not_not] at flagged
    simp [size, examples_of_make made, numbered, flagged]

theorem map_some_filterMap (source : Source α) {order : List Nat}
    (inside : ∀ i ∈ order, i < source.size) :
    (order.filterMap (source.examples[·]?)).map some = order.map (source.examples[·]?) := by
  induction order with
  | nil => rfl
  | cons i order ih =>
    obtain ⟨here, others⟩ := List.forall_mem_cons.mp inside
    rw [List.map_cons, ← ih others]
    simp [List.getElem?_eq_getElem (show i < source.examples.length from here)]

theorem parts_deal_rows (source : Source α) {order : List Nat}
    (shuffle : order.Perm (List.range source.size)) {count : Int} (positive : 1 ≤ count) :
    ∃ parts, source.parts order count = .ok parts ∧ parts.length = count ∧
      parts.flatten.map some = order.map (source.examples[·]?) ∧
      parts.flatten.Perm source.examples ∧
      (order = List.range source.size → parts.flatten = source.examples) ∧
      (∀ features numbers events,
        ofColumns source.dimension features numbers events = .ok source →
        source.size = features.length ∧
          parts.flatten.map some = order.map (rowAt features numbers events)) ∧
      (parts.map List.length).Pairwise (· ≥ ·) ∧
      ∀ p ∈ parts, ∀ q ∈ parts, p.length ≤ q.length + 1 := by
  obtain ⟨n, size⟩ : ∃ n, count.toNat = n + 1 := ⟨count.toNat - 1, by omega⟩
  have chosen := source.map_some_filterMap fun i member =>
    List.mem_range.mp (shuffle.mem_iff.mp member)
  have natural : (List.range source.size).filterMap (source.examples[·]?) = source.examples := by
    rw [filterMap_range, Source.size, List.take_length]
  have reordered := (shuffle.filterMap (source.examples[·]?)).trans (.of_eq natural)
  let rows := order.filterMap (source.examples[·]?)
  have length_mem {p : List (Example α)} (member : p ∈ cut (n + 1) rows) :
      ∃ k, share rows.length (n + 1) k = p.length := by
    have inside := List.mem_map_of_mem (f := List.length) member
    rw [lengths_cut] at inside
    obtain ⟨k, -, same⟩ := List.mem_map.mp inside
    exact ⟨k, same⟩
  refine ⟨cut (n + 1) rows, ?_, ?_, ?_, ?_, ?_, ?_, ?_, ?_⟩
  · rw [Source.parts, if_neg (by omega), size]
  · rw [length_cut]
    omega
  · rw [flatten_cut, chosen]
  · rwa [flatten_cut]
  · intro same
    rw [flatten_cut, ← natural, ← same]
  · intro features numbers events columns
    refine ⟨size_of_ofColumns columns, ?_⟩
    rw [flatten_cut, chosen]
    exact List.map_congr_left fun i _ => getElem?_ofColumns columns i
  · rw [lengths_cut, List.pairwise_map]
    exact List.pairwise_lt_range.imp fun before => share_antitone _ _ before.le
  · intro p inside q inside'
    obtain ⟨j, first⟩ := length_mem inside
    obtain ⟨k, second⟩ := length_mem inside'
    rw [← first, ← second]
    exact share_le_succ _ _ j k

theorem parts_deal_rows_censored :
    let features : List (Vec ℝ) := [[2], [7], [4]]
    let times : List ℝ := [5, 5, 1]
    let events := [true, false, true]
    let rows : List (Example ℝ) :=
      [⟨[2], .survival 5 true⟩, ⟨[7], .survival 5 false⟩, ⟨[4], .survival 1 true⟩]
    let source : Source ℝ := ⟨1, true, rows, by simp [rows, Example.dimension, Label.isSurvival]⟩
    [2, 0, 1].Perm (List.range source.size) ∧
    ∃ parts, source.parts [2, 0, 1] 2 = .ok parts ∧ parts.length = (2 : Int) ∧
      parts.flatten.map some = [2, 0, 1].map (rowAt features times (some events)) ∧
      (parts.map List.length).Pairwise (· ≥ ·) := by
  intro features times events rows source
  have shuffle : [2, 0, 1].Perm (List.range source.size) := by decide
  have made : ofColumns 1 features times (some events) = .ok source := by
    simp [ofColumns, make, features, times, events, source, rows, Example.dimension,
      Label.isSurvival]
  obtain ⟨parts, dealt, counted, -, -, -, columns, ordered, -⟩ :=
    parts_deal_rows source shuffle (by decide : (1 : Int) ≤ 2)
  exact ⟨shuffle, parts, dealt, counted, (columns _ _ _ made).2, ordered⟩

end Passwise.Source
