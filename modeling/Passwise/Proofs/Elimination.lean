import Passwise.Proofs.Sizes

set_option autoImplicit false

namespace Passwise

variable {α : Type} [Scalar α] {d : Nat}

class DenseSolver.Shaped (α : Type) [Scalar α] [DenseSolver α] : Prop where
  length_solve : ∀ {d : Nat} {m : Mat α} {v x : Vec α}, m.Square d → v.length = d →
    solve m v = .ok x → x.length = d
  square_inverse : ∀ {d : Nat} {m i : Mat α}, m.Square d → inverse m = .ok i → i.Square d

namespace Elimination

theorem pivotFirst_perm (rows : Mat α) : (pivotFirst rows).Perm rows := by
  induction rows with
  | nil => exact .refl _
  | cons row rest ih =>
    unfold pivotFirst
    split
    · next none => exact (none ▸ ih).cons row
    · next best others found =>
      rw [found] at ih
      split_ifs
      · exact (List.Perm.swap row best others).trans (ih.cons row)
      · exact ih.cons row

theorem square_clearBelow {size : Nat} {pivot : Vec α} {rows : Mat α}
    (pivotSize : pivot.length = size + 1) (sizes : ∀ row ∈ rows, row.length = size + 1) :
    ∀ row ∈ clearBelow pivot rows, row.length = size := by
  intro row member
  obtain ⟨old, inside, rfl⟩ := List.mem_map.mp member
  have oldSize := sizes old inside
  rw [Vec.length_sub (by simp [oldSize, pivotSize]), List.length_tail, oldSize]
  omega

theorem length_foldl_sub {extra : Nat} {used : Mat α} {known : Vec α}
    (knownSize : known.length = extra) (sizes : ∀ row ∈ used, row.length = extra) :
    (used.foldl Vec.sub known).length = extra := by
  induction used generalizing known with
  | nil => exact knownSize
  | cons row rest ih =>
    have rowSize := sizes row (by simp)
    refine ih ?_ fun later member => sizes later (by simp [member])
    rw [Vec.length_sub (knownSize.trans rowSize.symm), knownSize]

theorem reduce_sizes {size extra : Nat} {rows solved : Mat α}
    (sizes : ∀ row ∈ rows, row.length = size + extra) (done : reduce size rows = .ok solved) :
    solved.length = size ∧ ∀ row ∈ solved, row.length = extra := by
  induction size generalizing rows solved with
  | zero =>
    cases done
    exact ⟨rfl, by simp⟩
  | succ size ih =>
    have perm := pivotFirst_perm rows
    unfold reduce at done
    split at done
    · cases done
    · next pivot others found =>
      rw [found] at perm
      have all (row : Vec α) (member : row ∈ pivot :: others) : row.length = size + extra + 1 := by
        rw [sizes row (perm.mem_iff.mp member)]
        omega
      split_ifs at done
      obtain ⟨later, below, done⟩ := bind_eq_ok.mp done
      cases done
      obtain ⟨count, lengths⟩ := ih (square_clearBelow (all pivot (by simp))
        fun row member => all row (by simp [member])) below
      refine ⟨by simp [count], fun row member => ?_⟩
      rcases List.mem_cons.mp member with rfl | inside
      · rw [List.length_map]
        have pivotSize := all pivot (by simp)
        refine length_foldl_sub (by simp [pivotSize]) fun used among => ?_
        rw [List.zipWith_comm, ← List.map_uncurry_zip_eq_zipWith] at among
        obtain ⟨⟨v, c⟩, pair, rfl⟩ := List.mem_map.mp among
        simpa using lengths v (List.of_mem_zip pair).1
      · exact lengths row inside

abbrev solver (α : Type) [Scalar α] : DenseSolver α :=
  ⟨Rotation.condition, Elimination.solve, Elimination.inverse⟩

omit [Scalar α] in
theorem length_zipWith_rows {β : Type} {extra : Nat} {join : Vec α → β → Vec α} {m : Mat α}
    {rights : List β} (square : m.Square d)
    (longer : ∀ row ∈ m, ∀ right ∈ rights, (join row right).length = row.length + extra) :
    ∀ row ∈ List.zipWith join m rights, row.length = d + extra := by
  intro row member
  rw [← List.map_uncurry_zip_eq_zipWith] at member
  obtain ⟨⟨old, right⟩, pair, rfl⟩ := List.mem_map.mp member
  obtain ⟨inside, among⟩ := List.of_mem_zip pair
  rw [← square.2 old inside]
  exact longer old inside right among

theorem length_solve {m : Mat α} {v x : Vec α} (square : m.Square d)
    (solved : Elimination.solve m v = .ok x) : x.length = d := by
  unfold Elimination.solve at solved
  split_ifs at solved
  obtain ⟨rows, reduced, solved⟩ := bind_eq_ok.mp solved
  cases solved
  rw [square.1] at reduced
  rw [List.length_map]
  exact (reduce_sizes (length_zipWith_rows square fun row _ x _ => by
    rw [List.length_append]
    rfl) reduced).1

theorem square_inverse {m i : Mat α} (square : m.Square d)
    (inverted : Elimination.inverse m = .ok i) : i.Square d := by
  unfold Elimination.inverse at inverted
  rw [square.1] at inverted
  refine reduce_sizes (length_zipWith_rows square fun row _ unit among => ?_) inverted
  rw [List.length_append, Mat.square_identity.2 unit among]

theorem shaped : @DenseSolver.Shaped α _ (solver α) :=
  @DenseSolver.Shaped.mk α _ (solver α) (fun square _ solved => length_solve square solved)
    fun square inverted => square_inverse square inverted

end Elimination

end Passwise
