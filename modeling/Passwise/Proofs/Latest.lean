import Mathlib
import Passwise.Proofs.Ranks

set_option autoImplicit false

namespace Passwise.Report

section Lists

variable {β κ : Type} [LinearOrder κ] (key : β → κ) {xs ys : List β} {x : β}

def latest : List β → List β
  | [] => []
  | x :: rest =>
    if rest.any fun y => decide (key y = key x) then latest rest else x :: latest rest

theorem latest_sublist (xs : List β) : (latest key xs).Sublist xs := by
  induction xs with
  | nil => exact .slnil
  | cons x rest ih =>
    rw [latest]
    split_ifs
    · exact ih.cons x
    · exact ih.cons_cons x

theorem mem_latest : x ∈ latest key xs ↔
    ∃ before after, xs = before ++ x :: after ∧ ∀ y ∈ after, key y ≠ key x := by
  induction xs with
  | nil => simp [latest]
  | cons z rest ih =>
    have inside : (∃ before after, rest = before ++ x :: after ∧ ∀ y ∈ after, key y ≠ key x) →
        ∃ before after, z :: rest = before ++ x :: after ∧ ∀ y ∈ after, key y ≠ key x := by
      rintro ⟨before, after, rfl, apart⟩
      exact ⟨z :: before, after, rfl, apart⟩
    rw [latest]
    split_ifs with again
    · rw [ih]
      refine ⟨inside, ?_⟩
      rintro ⟨_ | ⟨z', before⟩, after, same, apart⟩
      · obtain ⟨rfl, rfl⟩ := List.cons.inj same
        obtain ⟨y, member, same⟩ := List.any_eq_true.mp again
        exact absurd (of_decide_eq_true same) (apart y member)
      · exact ⟨before, after, (List.cons.inj same).2, apart⟩
    · rw [List.mem_cons, ih]
      constructor
      · rintro (rfl | later)
        · refine ⟨[], rest, rfl, fun y member same => again ?_⟩
          exact List.any_eq_true.mpr ⟨y, member, decide_eq_true same⟩
        · exact inside later
      · rintro ⟨_ | ⟨z', before⟩, after, same, apart⟩
        · exact .inl (List.cons.inj same).1.symm
        · exact .inr ⟨before, after, (List.cons.inj same).2, apart⟩

theorem pairwise_latest (xs : List β) : (latest key xs).Pairwise fun x y => key x ≠ key y := by
  induction xs with
  | nil => exact .nil
  | cons x rest ih =>
    rw [latest]
    split_ifs with again
    · exact ih
    · refine List.pairwise_cons.mpr ⟨fun y member same => again ?_, ih⟩
      exact List.any_eq_true.mpr
        ⟨y, (latest_sublist key rest).subset member, decide_eq_true same.symm⟩

theorem filter_latest (xs : List β) (c : κ) :
    (latest key xs).filter (fun x => decide (key x = c)) =
      ((xs.filter fun x => decide (key x = c)).getLast?).toList := by
  induction xs with
  | nil => rfl
  | cons x rest ih =>
    by_cases same : key x = c
    · have kept (xs : List β) : (x :: xs).filter (fun x => decide (key x = c)) =
          x :: xs.filter fun x => decide (key x = c) := by
        rw [List.filter_cons, if_pos (decide_eq_true same)]
      rw [latest, kept]
      split_ifs with again
      · obtain ⟨y, member, same'⟩ := List.any_eq_true.mp again
        have member' : y ∈ rest.filter fun x => decide (key x = c) :=
          List.mem_filter.mpr ⟨member, decide_eq_true ((of_decide_eq_true same').trans same)⟩
        rw [ih, List.getLast?_cons_of_ne_nil (List.ne_nil_of_mem member')]
      · have none : rest.filter (fun x => decide (key x = c)) = [] := by
          refine List.filter_eq_nil_iff.mpr fun y member same' => again ?_
          exact List.any_eq_true.mpr
            ⟨y, member, decide_eq_true ((of_decide_eq_true same').trans same.symm)⟩
        rw [kept, ih, none]
        rfl
    · have dropped (xs : List β) : (x :: xs).filter (fun x => decide (key x = c)) =
          xs.filter fun x => decide (key x = c) := by
        rw [List.filter_cons, if_neg (mt of_decide_eq_true same)]
      rw [latest, dropped, ← ih]
      split_ifs
      · rfl
      · exact dropped _

theorem latest_of_pairwise (apart : xs.Pairwise fun x y => key x ≠ key y) : latest key xs = xs := by
  induction xs with
  | nil => rfl
  | cons x rest ih =>
    rw [latest, if_neg, ih apart.of_cons]
    rw [List.any_eq_true]
    rintro ⟨y, member, same⟩
    exact (List.pairwise_cons.mp apart).1 y member (of_decide_eq_true same).symm

theorem decide_trans (x y z : β) : decide (key x ≤ key y) = true →
    decide (key y ≤ key z) = true → decide (key x ≤ key z) = true := by
  simpa only [decide_eq_true_iff] using le_trans

theorem decide_total (x y : β) : (decide (key x ≤ key y) || decide (key y ≤ key x)) = true := by
  simpa only [Bool.or_eq_true, decide_eq_true_iff] using le_total (key x) (key y)

theorem pairwise_mergeSort (xs : List β) :
    (xs.mergeSort fun x y => decide (key x ≤ key y)).Pairwise fun x y => key x ≤ key y :=
  (List.pairwise_mergeSort (decide_trans key) (decide_total key) xs).imp of_decide_eq_true

theorem filter_mergeSort (xs : List β) (c : κ) :
    (xs.mergeSort fun x y => decide (key x ≤ key y)).filter (fun x => decide (key x = c)) =
      xs.filter fun x => decide (key x = c) := by
  have ordered : (xs.filter fun x => decide (key x = c)).Pairwise fun x y =>
      decide (key x ≤ key y) = true := by
    refine List.pairwise_of_forall_mem_list fun x left y right => ?_
    have same := of_decide_eq_true (List.mem_filter.mp left).2
    have same' := of_decide_eq_true (List.mem_filter.mp right).2
    exact decide_eq_true (same.trans same'.symm).le
  have inside := (List.sublist_mergeSort (decide_trans key) (decide_total key) ordered
    List.filter_sublist).filter fun x => decide (key x = c)
  rw [List.filter_filter] at inside
  simp only [Bool.and_self] at inside
  exact (inside.eq_of_length
    ((List.mergeSort_perm xs _).filter _).length_eq.symm).symm

theorem latest_mergeSort_perm (xs : List β) :
    (latest key (xs.mergeSort fun x y => decide (key x ≤ key y))).Perm (latest key xs) := by
  have nodup (xs : List β) : (latest key xs).Nodup :=
    (pairwise_latest key xs).imp fun apart same => apart (congrArg key same)
  refine (List.perm_ext_iff_of_nodup (nodup _) (nodup _)).mpr fun x => ?_
  have inside (xs : List β) : x ∈ latest key xs ↔
      x ∈ ((xs.filter fun y => decide (key y = key x)).getLast?).toList := by
    rw [← filter_latest, List.mem_filter, decide_eq_true rfl]
    simp
  rw [inside, inside, filter_mergeSort]

end Lists

section Rows

variable {k : Keys} {rows : List (List Cell)}

def kept (k : Keys) (rows : List (List Cell)) : List (List Cell) :=
  lastOfEach k ((rows.mergeSort k.notAfter).filter k.complete)

theorem lastOfEach_eq (ranked : ∀ row ∈ rows, k.Ranked row)
    (ordered : rows.Pairwise fun a b => k.key a ≤ k.key b) :
    lastOfEach k rows = latest k.key rows := by
  induction rows with
  | nil => rfl
  | cons a rest ih =>
    have ih := ih (fun row member => ranked row (.tail a member)) ordered.of_cons
    cases rest with
    | nil => rfl
    | cons b rest =>
      have again : (k.sameRow a b = true) ↔
          ((b :: rest).any fun y => decide (k.key y = k.key a)) = true := by
        rw [Keys.sameRow_eq (ranked a (.head _)) (ranked b (.tail a (.head _))),
          decide_eq_true_iff, List.any_eq_true]
        refine ⟨fun same => ⟨b, .head _, decide_eq_true same.symm⟩, ?_⟩
        rintro ⟨y, member, same⟩
        have first := (List.pairwise_cons.mp ordered).1 b (.head _)
        have next : k.key b ≤ k.key y := by
          rcases List.mem_cons.mp member with rfl | later
          · exact le_rfl
          · exact (List.pairwise_cons.mp ordered.of_cons).1 y later
        exact first.antisymm (next.trans_eq (of_decide_eq_true same))
      rw [lastOfEach, latest, ih]
      exact if_congr again rfl rfl

theorem kept_eq (ranked : ∀ row ∈ rows, k.Ranked row) :
    kept k rows = latest k.key (rows.mergeSort fun a b => decide (k.key a ≤ k.key b)) := by
  have sorted : rows.mergeSort k.notAfter =
      rows.mergeSort fun a b => decide (k.key a ≤ k.key b) := by
    have same := List.map_mergeSort (r := k.notAfter)
      (s := fun a b => decide (k.key a ≤ k.key b)) (f := id) (l := rows)
      fun a left b right => Keys.notAfter_eq (ranked a left) (ranked b right)
    rwa [List.map_id, List.map_id] at same
  have ranked' : ∀ row ∈ rows.mergeSort k.notAfter, k.Ranked row := fun row member =>
    ranked row ((List.mergeSort_perm rows _).subset member)
  rw [kept, List.filter_eq_self.mpr fun row member => (ranked' row member).complete]
  rw [sorted] at ranked' ⊢
  exact lastOfEach_eq ranked' (pairwise_mergeSort k.key rows)

theorem pairwise_kept (ranked : ∀ row ∈ rows, k.Ranked row) :
    (kept k rows).Pairwise fun a b => k.key a < k.key b := by
  rw [kept_eq ranked]
  have ordered := (pairwise_mergeSort k.key rows).sublist (latest_sublist k.key _)
  exact (ordered.and (pairwise_latest k.key _)).imp fun both => both.1.lt_of_ne both.2

theorem mem_kept {row : List Cell} (ranked : ∀ row ∈ rows, k.Ranked row) : row ∈ kept k rows ↔
    ∃ before after, rows = before ++ row :: after ∧ ∀ later ∈ after, k.key later ≠ k.key row := by
  rw [kept_eq ranked, (latest_mergeSort_perm k.key rows).mem_iff, mem_latest]

theorem mem_of_mem_kept {row : List Cell} (ranked : ∀ row ∈ rows, k.Ranked row)
    (member : row ∈ kept k rows) : row ∈ rows := by
  obtain ⟨before, after, rfl, -⟩ := (mem_kept ranked).mp member
  exact List.mem_append_right before (.head after)

theorem exists_kept {row : List Cell} (ranked : ∀ row ∈ rows, k.Ranked row) (member : row ∈ rows) :
    ∃ last ∈ kept k rows, k.key last = k.key row := by
  have inside : row ∈ rows.filter fun x => decide (k.key x = k.key row) :=
    List.mem_filter.mpr ⟨member, decide_eq_true rfl⟩
  have last := filter_latest k.key rows (k.key row)
  rw [List.getLast?_eq_getLast_of_ne_nil (List.ne_nil_of_mem inside), Option.toList_some] at last
  obtain ⟨found, same⟩ := List.mem_filter.mp (last ▸ List.mem_singleton_self _)
  refine ⟨_, ?_, of_decide_eq_true same⟩
  rw [kept_eq ranked, (latest_mergeSort_perm k.key rows).mem_iff]
  exact found

theorem kept_of_pairwise (ranked : ∀ row ∈ rows, k.Ranked row)
    (ordered : rows.Pairwise fun a b => k.key a < k.key b) : kept k rows = rows := by
  have sorted : rows.mergeSort (fun a b => decide (k.key a ≤ k.key b)) = rows :=
    List.mergeSort_of_pairwise (ordered.imp fun below => decide_eq_true below.le)
  rw [kept_eq ranked, sorted, latest_of_pairwise k.key (ordered.imp ne_of_lt)]

end Rows

end Passwise.Report
