import Mathlib.Data.Nat.Log
import Passwise.Proofs.Reduction
import Passwise.Proofs.Update

set_option autoImplicit false

namespace Passwise

variable {β : Type}

namespace MergeTree

def depth : MergeTree β → Nat
  | leaf _ => 0
  | node left right => max left.depth right.depth + 1

def merges : MergeTree β → Nat
  | leaf _ => 0
  | node left right => left.merges + right.merges + 1

theorem merges_succ (t : MergeTree β) : t.merges + 1 = t.leaves.length := by
  induction t with
  | leaf value => rfl
  | node left right ihLeft ihRight =>
    rw [merges, leaves, List.length_append, ← ihLeft, ← ihRight]
    omega

theorem leaves_ne_nil (t : MergeTree β) : t.leaves ≠ [] := by
  apply List.ne_nil_of_length_pos
  rw [← t.merges_succ]
  exact Nat.succ_pos _

variable (merge : β → β → Except Error β)

inductive Fails (cause : Error) : MergeTree β → Prop
  | here {left right : MergeTree β} {a b : β} (first : left.eval merge = .ok a)
      (second : right.eval merge = .ok b) (fails : merge a b = .error cause) :
      Fails cause (node left right)
  | left {left right : MergeTree β} (fails : Fails cause left) : Fails cause (node left right)
  | right {left right : MergeTree β} (fails : Fails cause right) : Fails cause (node left right)

def Yields (t : MergeTree β) : Except Error (Option β) → Prop
  | .ok value => ∃ x, value = some x ∧ t.eval merge = .ok x
  | .error cause => t.Fails merge cause

variable {merge} {cause : Error}

theorem fails_of_eval {t : MergeTree β} (failed : t.eval merge = .error cause) :
    t.Fails merge cause := by
  induction t with
  | leaf value => cases failed
  | node left right ihLeft ihRight =>
    rw [eval] at failed
    cases first : left.eval merge with
    | error own =>
      rw [first] at failed
      cases failed
      exact .left (ihLeft first)
    | ok a =>
      rw [first, ok_bind] at failed
      cases second : right.eval merge with
      | error own =>
        rw [second] at failed
        cases failed
        exact .right (ihRight second)
      | ok b =>
        rw [second, ok_bind] at failed
        exact .here first second failed

theorem Fails.eval {t : MergeTree β} (fails : t.Fails merge cause) :
    ∃ own, t.eval merge = .error own := by
  induction fails with
  | here first second fails =>
    exact ⟨cause, by rw [MergeTree.eval, first, ok_bind, second, ok_bind, fails]⟩
  | left _ ih =>
    obtain ⟨own, failed⟩ := ih
    exact ⟨own, by rw [MergeTree.eval, failed]; rfl⟩
  | @right left right _ ih =>
    obtain ⟨own, failed⟩ := ih
    rw [MergeTree.eval, failed]
    cases left.eval merge with
    | error other => exact ⟨other, rfl⟩
    | ok a => exact ⟨own, rfl⟩

def comb (first : β) (rest : List β) : MergeTree β :=
  rest.foldl (fun t x => node t (leaf x)) (leaf first)

theorem leaves_foldl (t : MergeTree β) (rest : List β) :
    (rest.foldl (fun t x => node t (leaf x)) t).leaves = t.leaves ++ rest := by
  induction rest generalizing t with
  | nil => simp
  | cons x rest ih => simp [ih, leaves]

theorem leaves_comb (first : β) (rest : List β) : (comb first rest).leaves = first :: rest :=
  leaves_foldl (leaf first) rest

theorem eval_foldl (t : MergeTree β) (rest : List β) :
    (rest.foldl (fun t x => node t (leaf x)) t).eval merge =
      t.eval merge >>= rest.foldlM merge := by
  induction rest generalizing t with
  | nil =>
    rw [List.foldl_nil]
    cases t.eval merge <;> rfl
  | cons x rest ih =>
    rw [List.foldl_cons, ih, eval]
    cases t.eval merge <;> rfl

theorem eval_comb (first : β) (rest : List β) :
    (comb first rest).eval merge = rest.foldlM merge first :=
  eval_foldl (leaf first) rest

end MergeTree

namespace Shape

open MergeTree

section Rounds

def pairs : List (MergeTree β) → List (MergeTree β)
  | left :: right :: rest => node left right :: pairs rest
  | rest => rest

theorem pairs_short {row : List (MergeTree β)} (few : row.length < 2) : pairs row = row := by
  match row, few with
  | [], _ => rfl
  | [_], _ => rfl

theorem length_pairs (row : List (MergeTree β)) : (pairs row).length = (row.length + 1) / 2 := by
  induction row using pairs.induct with
  | case1 left right rest ih =>
    simp only [pairs, List.length_cons, ih]
    omega
  | case2 row short =>
    have few := length_lt_two short
    rw [pairs_short few]
    omega

theorem clog_pairs (left right : MergeTree β) (rest : List (MergeTree β)) :
    Nat.clog 2 (left :: right :: rest).length =
      Nat.clog 2 (pairs (left :: right :: rest)).length + 1 := by
  rw [length_pairs]
  exact Nat.clog_of_two_le (Nat.le_refl 2) (by simp)

theorem leaves_pairs (row : List (MergeTree β)) :
    (pairs row).flatMap leaves = row.flatMap leaves := by
  induction row using pairs.induct with
  | case1 left right rest ih => simp [pairs, leaves, ih]
  | case2 row short => rw [pairs_short (length_lt_two short)]

theorem depth_pairs {k : Nat} {row : List (MergeTree β)} (bounded : ∀ t ∈ row, t.depth ≤ k) :
    ∀ t ∈ pairs row, t.depth ≤ k + 1 := by
  induction row using pairs.induct with
  | case1 left right rest ih =>
    have first := bounded left (by simp)
    have second := bounded right (by simp)
    refine List.forall_mem_cons.mpr ⟨?_, ih fun t member => bounded t (by simp [member])⟩
    rw [depth]
    omega
  | case2 row short =>
    rw [pairs_short (length_lt_two short)]
    exact fun t member => (bounded t member).trans (Nat.le_succ k)

-- Each round makes the first tree deeper by one, and no other is deeper than the first.
structure Level (k : Nat) (row : List (MergeTree β)) : Prop where
  first : ∃ t rest, row = t :: rest ∧ t.depth = k
  bounded : ∀ t ∈ row, t.depth ≤ k

theorem level_leaves (first : β) (rest : List β) : Level 0 ((first :: rest).map leaf) where
  first := ⟨_, _, rfl, rfl⟩
  bounded t member := by
    obtain ⟨x, -, rfl⟩ := List.mem_map.mp member
    exact Nat.le_refl 0

theorem Level.pairs {k : Nat} {left right : MergeTree β} {rest : List (MergeTree β)}
    (level : Level k (left :: right :: rest)) :
    Level (k + 1) (Shape.pairs (left :: right :: rest)) where
  first := by
    obtain ⟨_, _, same, depth⟩ := level.first
    cases same
    have second := level.bounded right (by simp)
    refine ⟨_, _, rfl, ?_⟩
    rw [MergeTree.depth, depth, max_eq_left second]
  bounded := depth_pairs level.bounded

variable (merge : β → β → Except Error β)

abbrev Come (row : List (MergeTree β)) (values : List β) : Prop :=
  List.Forall₂ (fun t x => t.eval merge = .ok x) row values

def Advances (row : List (MergeTree β)) : Except Error (List β) → Prop
  | .ok next => Come merge (pairs row) next
  | .error cause => ∃ t ∈ pairs row, t.Fails merge cause

variable {merge}

theorem advances_pairUp {row : List (MergeTree β)} {values : List β}
    (come : Come merge row values) : Advances merge row (pairUp merge values) := by
  induction row using pairs.induct generalizing values with
  | case1 left right rest ih =>
    obtain _ | ⟨first, _ | ⟨second, others⟩⟩ := come
    rename_i a b values
    rw [pairUp]
    cases merged : merge a b with
    | error cause => exact ⟨node left right, by simp [pairs], .here first second merged⟩
    | ok c =>
      have whole : (node left right).eval merge = .ok c := by
        rw [eval, first, ok_bind, second, ok_bind, merged]
      have later := ih others
      cases paired : pairUp merge values with
      | error cause =>
        rw [paired] at later
        obtain ⟨t, member, fails⟩ := later
        exact ⟨t, by simp [pairs, member], fails⟩
      | ok next =>
        rw [paired] at later
        exact .cons whole later
  | case2 row short =>
    have few := length_lt_two short
    rw [pairUp_short (come.length_eq ▸ few), Advances, pairs_short few]
    exact come

theorem fails_pairs {cause : Error} {row : List (MergeTree β)} {t : MergeTree β}
    (member : t ∈ row) (fails : t.Fails merge cause) :
    ∃ next ∈ pairs row, next.Fails merge cause := by
  induction row using pairs.induct with
  | case1 left right rest ih =>
    rcases List.mem_cons.mp member with rfl | member
    · exact ⟨node t right, by simp [pairs], .left fails⟩
    rcases List.mem_cons.mp member with rfl | later
    · exact ⟨node left t, by simp [pairs], .right fails⟩
    · obtain ⟨next, inside, fails⟩ := ih later
      exact ⟨next, by simp [pairs, inside], fails⟩
  | case2 row short => exact ⟨t, by rwa [pairs_short (length_lt_two short)], fails⟩

structure Balances (rounds k : Nat) (row : List (MergeTree β)) (t : MergeTree β) : Prop where
  leaves : t.leaves = row.flatMap leaves
  depth : t.depth = k + Nat.clog 2 row.length
  fails : ∀ merge cause, ∀ s ∈ row, s.Fails merge cause → t.Fails merge cause
  yields : ∀ merge values, Come merge row values →
    t.Yields merge (pairwise merge rounds values)

theorem balances_single (rounds k : Nat) {t : MergeTree β} (depth : t.depth = k) :
    Balances rounds k [t] t where
  leaves := by simp
  depth := by simpa using depth
  fails merge cause s member fails := by
    obtain rfl := List.mem_singleton.mp member
    exact fails
  yields merge values come := by
    obtain _ | ⟨here, _ | _⟩ := come
    cases rounds with
    | zero => exact ⟨_, rfl, here⟩
    | succ rounds => exact ⟨_, rfl, here⟩

theorem Balances.before {rounds k : Nat} {left right t : MergeTree β}
    {rest : List (MergeTree β)}
    (after : Balances rounds (k + 1) (pairs (left :: right :: rest)) t) :
    Balances (rounds + 1) k (left :: right :: rest) t where
  leaves := after.leaves.trans (leaves_pairs _)
  depth := by
    rw [after.depth, clog_pairs]
    omega
  fails merge cause s member fails := by
    obtain ⟨next, inside, fails⟩ := fails_pairs member fails
    exact after.fails merge cause next inside fails
  yields merge values come := by
    have round := advances_pairUp come
    obtain _ | ⟨_, _ | _⟩ := come
    rw [pairwise]
    · cases paired : pairUp merge _ with
      | error cause =>
        rw [paired] at round
        obtain ⟨s, inside, fails⟩ := round
        exact after.fails merge cause s inside fails
      | ok next =>
        rw [paired] at round
        exact after.yields merge next round
    · simp
    · simp

theorem exists_balances (rounds : Nat) {k : Nat} {row : List (MergeTree β)} (level : Level k row)
    (enough : Nat.clog 2 row.length ≤ rounds) : ∃ t, Balances rounds k row t := by
  induction rounds generalizing k row with
  | zero =>
    obtain ⟨t, _ | ⟨right, rest⟩, rfl, depth⟩ := level.first
    · exact ⟨t, balances_single 0 k depth⟩
    · rw [clog_pairs] at enough
      omega
  | succ rounds ih =>
    obtain ⟨t, _ | ⟨right, rest⟩, rfl, depth⟩ := level.first
    · exact ⟨t, balances_single (rounds + 1) k depth⟩
    · rw [clog_pairs] at enough
      obtain ⟨whole, after⟩ := ih level.pairs (Nat.le_of_succ_le_succ enough)
      exact ⟨whole, after.before⟩

end Rounds

section Associative

variable (merge : β → β → Except Error β)

def Associative : Prop :=
  ∀ a b c, (merge a b >>= (merge · c)) = (merge b c >>= merge a)

variable {merge} {a b c d : β} {cause cause' : Error}

theorem Associative.same_beside (assoc : Associative merge) (left : merge a b = .error cause)
    (right : merge b c = .error cause') : cause = cause' := by
  have same := assoc a b c
  rw [left, right] at same
  cases same
  rfl

theorem Associative.same_error (assoc : Associative merge) (left : merge a b = .error cause)
    (right : merge c d = .error cause') : cause = cause' := by
  cases middle : merge b c with
  | error own => exact (assoc.same_beside left middle).trans (assoc.same_beside middle right)
  | ok x =>
    have first := assoc a b c
    have second := assoc b c d
    rw [left, middle, ok_bind] at first
    rw [middle, right, ok_bind] at second
    exact assoc.same_beside first.symm second

theorem Associative.same_fails (assoc : Associative merge) {t t' : MergeTree β}
    (fails : t.Fails merge cause) (fails' : t'.Fails merge cause') : cause = cause' := by
  have merges {s : MergeTree β} {own : Error} (fails : s.Fails merge own) :
      ∃ x y, merge x y = .error own := by
    induction fails with
    | here _ _ fails => exact ⟨_, _, fails⟩
    | left _ ih => exact ih
    | right _ ih => exact ih
  obtain ⟨a, b, left⟩ := merges fails
  obtain ⟨c, d, right⟩ := merges fails'
  exact assoc.same_error left right

theorem Associative.merge_foldlM (assoc : Associative merge) (a b : β) (rest : List β) :
    (rest.foldlM merge b >>= merge a) = (b :: rest).foldlM merge a := by
  induction rest generalizing b with
  | nil =>
    change merge a b = merge a b >>= pure
    cases merge a b <;> rfl
  | cons c rest ih =>
    have turned := assoc a b c
    calc ((c :: rest).foldlM merge b >>= merge a)
        = merge b c >>= fun x => rest.foldlM merge x >>= merge a := by
          rw [List.foldlM_cons]
          cases merge b c <;> rfl
      _ = merge b c >>= fun x => (x :: rest).foldlM merge a := by simp only [ih]
      _ = (merge b c >>= merge a) >>= rest.foldlM merge := by
          cases merge b c <;> rfl
      _ = (merge a b >>= (merge · c)) >>= rest.foldlM merge := by rw [turned]
      _ = (b :: c :: rest).foldlM merge a := by
          rw [List.foldlM_cons]
          cases merge a b <;> rfl

theorem Associative.eval_eq (assoc : Associative merge) (t : MergeTree β) {first : β}
    {rest : List β} (leaves : t.leaves = first :: rest) :
    t.eval merge = rest.foldlM merge first := by
  induction t generalizing first rest with
  | leaf value =>
    cases leaves
    rfl
  | node left right ihLeft ihRight =>
    obtain ⟨x, xs, leavesLeft⟩ := List.exists_cons_of_ne_nil left.leaves_ne_nil
    obtain ⟨y, ys, leavesRight⟩ := List.exists_cons_of_ne_nil right.leaves_ne_nil
    rw [MergeTree.leaves, leavesLeft, leavesRight] at leaves
    obtain ⟨rfl, rfl⟩ := List.cons_eq_cons.mp leaves
    rw [eval, ihLeft leavesLeft, ihRight leavesRight, List.append_eq, List.foldlM_append]
    cases xs.foldlM merge x with
    | error cause => rfl
    | ok a => exact assoc.merge_foldlM a y ys

end Associative

theorem reduce_balanced (first : β) (rest : List β) :
    (∃ t : MergeTree β, t.leaves = first :: rest ∧ t.merges = rest.length ∧
      t.depth = Nat.clog 2 (first :: rest).length ∧
      ∀ merge, t.Yields merge (tree.reduce merge (first :: rest))) ∧
    (comb first rest).leaves = first :: rest ∧
    (∀ merge, sequential.reduce merge (first :: rest) =
      some <$> (comb first rest).eval merge) ∧
    ∀ merge, Associative merge →
      tree.reduce merge (first :: rest) = sequential.reduce merge (first :: rest) := by
  have combed (merge : β → β → Except Error β) : sequential.reduce merge (first :: rest) =
      some <$> (comb first rest).eval merge := by
    rw [eval_comb]
    rfl
  obtain ⟨t, balances⟩ := exists_balances (first :: rest).length (level_leaves first rest)
    (by simpa using Nat.clog_le_of_le_pow Nat.lt_two_pow_self.le)
  have leaves : t.leaves = first :: rest := by
    rw [balances.leaves, List.flatMap_map]
    exact List.flatMap_singleton' _
  have yields (merge : β → β → Except Error β) :
      t.Yields merge (tree.reduce merge (first :: rest)) :=
    balances.yields merge _ (List.forall₂_map_left_iff.mpr (List.forall₂_same.mpr fun _ _ => rfl))
  refine ⟨⟨t, leaves, ?_, ?_, yields⟩, leaves_comb first rest, combed, fun merge assoc => ?_⟩
  · have count := t.merges_succ
    rw [leaves, List.length_cons] at count
    omega
  · simpa using balances.depth
  · have same : (comb first rest).eval merge = t.eval merge := by
      rw [eval_comb, assoc.eval_eq t leaves]
    rw [combed, same]
    have outcome := yields merge
    cases reduced : tree.reduce merge (first :: rest) with
    | ok value =>
      rw [reduced] at outcome
      obtain ⟨x, rfl, evaluated⟩ := outcome
      rw [evaluated, map_ok]
    | error cause =>
      rw [reduced] at outcome
      obtain ⟨own, failed⟩ := outcome.eval
      rw [failed, assoc.same_fails outcome (fails_of_eval failed), map_error]

theorem reduce_balanced_capped :
    let capped (a b : Nat) : Except Error Nat := if a + b ≤ 9 then .ok (a + b) else .error .overflow
    Associative capped ∧ tree.reduce capped [4, 1, 3, 1, 1] = .error .overflow ∧
      sequential.reduce capped [4, 1, 3, 1, 1] = .error .overflow ∧
      ∃ t : MergeTree Nat, t.leaves = [4, 1, 3, 1, 1] ∧ t.merges = 4 ∧ t.depth = 3 ∧
        t.Fails capped .overflow := by
  intro capped
  have assoc : Associative capped := by
    intro a b c
    simp only [capped]
    by_cases left : a + b ≤ 9 <;> by_cases right : b + c ≤ 9 <;> simp [left, right] <;> grind
  obtain ⟨⟨t, leaves, merges, depth, yields⟩, -, -, agree⟩ :=
    reduce_balanced 4 [1, 3, 1, 1]
  have fails : tree.reduce capped [4, 1, 3, 1, 1] = .error .overflow := rfl
  refine ⟨assoc, fails, (agree capped assoc).symm.trans fails, t, leaves, merges, ?_, ?_⟩
  · rw [depth]
    rfl
  · have outcome := yields capped
    rwa [fails] at outcome

end Shape

end Passwise
