import Passwise.Proofs.Coordinates
import Passwise.Proofs.Elimination

set_option autoImplicit false

namespace Passwise

open Matrix

variable {α : Type} [Exact α] {d : Nat}

namespace Vec

theorem dot_sub_scale {u v : Vec α} (same : u.length = v.length) (c : α) (x : Vec α) :
    dot (sub u (scale c v)) x = dot u x - c * dot v x := by
  induction u generalizing v x with
  | nil => cases v <;> simp_all [dot, sub, scale]
  | cons a u ih =>
    cases v with
    | nil => simp at same
    | cons b v =>
      cases x with
      | nil => simp [dot]
      | cons y x =>
        have rest := ih (by simpa using same) x
        simp only [dot, sub, scale, List.map_cons, List.zipWith_cons_cons, List.sum_cons] at rest ⊢
        rw [rest]
        ring

theorem getD_sub {u v : Vec α} (same : u.length = v.length) (i : Nat) :
    (sub u v).getD i 0 = u.getD i 0 - v.getD i 0 := by
  by_cases inside : i < u.length
  · have inside' : i < v.length := same ▸ inside
    simp [sub, inside, inside']
  · have outside : v.length ≤ i := by omega
    simp [sub, not_lt.mp inside, outside]

theorem getD_scale (c : α) (v : Vec α) (i : Nat) : (scale c v).getD i 0 = c * v.getD i 0 := by
  by_cases inside : i < v.length
  · simp [scale, inside]
  · simp [scale, not_lt.mp inside]

theorem getD_div (c : α) (v : Vec α) (i : Nat) : (v.map (· / c)).getD i 0 = v.getD i 0 / c := by
  by_cases inside : i < v.length
  · simp [inside]
  · simp [not_lt.mp inside]

end Vec

theorem Mat.exists_of {m : Mat α} (square : m.Square d) : ∃ n : Matrix (Fin d) (Fin d) α,
    m = Mat.of n := by
  obtain ⟨count, sizes⟩ := square
  refine ⟨fun i => Vec.entries d (m.get (i.cast count.symm)), ?_⟩
  apply List.ext_getElem
  · simp [Mat.of, count]
  · intro i inside _
    have row := Vec.of_entries (sizes _ (List.getElem_mem inside))
    simpa [Mat.of, Vec.of] using row.symm

namespace Elimination

def Holds (size c : Nat) (x row : Vec α) : Prop :=
  Vec.dot (row.take size) x = row.getD (size + c) 0

-- What is subtracted from the right-hand sides of a pivot: the unknowns below, each by its own
-- coefficient.
theorem getD_foldl_sub {extra c : Nat} (coefficients : Vec α) {solved : Mat α} {known : Vec α}
    (knownSize : known.length = extra) (sizes : ∀ row ∈ solved, row.length = extra) :
    ((List.zipWith Vec.scale coefficients solved).foldl Vec.sub known).getD c 0 =
      known.getD c 0 - Vec.dot coefficients (solved.map (·.getD c 0)) := by
  induction solved generalizing coefficients known with
  | nil => simp [Vec.dot]
  | cons row solved ih =>
    cases coefficients with
    | nil => simp [Vec.dot]
    | cons a coefficients =>
      have rowSize := sizes row (by simp)
      have scaled : known.length = (Vec.scale a row).length := by simp [knownSize, rowSize]
      have left : (Vec.sub known (Vec.scale a row)).length = extra := by
        rw [Vec.length_sub scaled, knownSize]
      rw [List.zipWith_cons_cons, List.foldl_cons,
        ih coefficients left fun later member => sizes later (by simp [member]),
        Vec.getD_sub scaled, Vec.getD_scale]
      simp only [Vec.dot, List.map_cons, List.zipWith_cons_cons, List.sum_cons]
      ring

theorem holds_cons {size c : Nat} (a x : α) (row below : Vec α) :
    Holds (size + 1) c (x :: below) (a :: row) ↔
      a * x + Vec.dot (row.take size) below = row.getD (size + c) 0 := by
  have place : size + 1 + c = size + c + 1 := by omega
  rw [Holds, place]
  simp [Vec.dot]

theorem holds_of_cleared {size c extra : Nat} {p a : α} {pivot row below : Vec α} (some : p ≠ 0)
    (pivotSize : pivot.length = extra) (rowSize : row.length = extra)
    (cleared : Holds size c below (Vec.sub row (Vec.scale (a / p) pivot))) :
    Holds (size + 1) c
      ((pivot.getD (size + c) 0 - Vec.dot (pivot.take size) below) / p :: below) (a :: row) := by
  have same : row.length = (Vec.scale (a / p) pivot).length := by simp [pivotSize, rowSize]
  have taken : (row.take size).length = (pivot.take size).length := by simp [pivotSize, rowSize]
  have cut : (Vec.sub row (Vec.scale (a / p) pivot)).take size =
      Vec.sub (row.take size) (Vec.scale (a / p) (pivot.take size)) := by
    simp [Vec.sub, Vec.scale, List.take_zipWith]
  rw [Holds, cut, Vec.dot_sub_scale taken, Vec.getD_sub same, Vec.getD_scale] at cleared
  rw [holds_cons]
  field_simp
  field_simp at cleared
  linear_combination cleared

theorem reduce_holds {size extra c : Nat} {rows solved : Mat α} (count : rows.length = size)
    (sizes : ∀ row ∈ rows, row.length = size + extra)
    (done : reduce size rows = .ok solved) :
    ∀ row ∈ rows, Holds size c (solved.map (·.getD c 0)) row := by
  induction size generalizing rows solved with
  | zero => simp [List.length_eq_zero_iff.mp count]
  | succ size ih =>
    have perm := pivotFirst_perm rows
    unfold reduce at done
    split at done
    · cases done
    · next pivot others found =>
      rw [found] at perm
      have all (row : Vec α) (member : row ∈ pivot :: others) : row.length = size + extra + 1 := by
        rw [sizes row (perm.mem_iff.mp member)]
        omega
      obtain ⟨p, pivot, rfl⟩ := List.exists_cons_of_length_eq_add_one (all pivot (by simp))
      have pivotSize : pivot.length = size + extra := by simpa using all (p :: pivot) (by simp)
      split_ifs at done with zero
      obtain ⟨later, below, done⟩ := bind_eq_ok.mp done
      cases done
      have some : p ≠ 0 := by simpa using zero
      have fewer : (clearBelow (p :: pivot) others).length = size := by
        have same := perm.length_eq
        simp only [List.length_cons, count] at same
        simp only [clearBelow, List.length_map]
        omega
      have shorter : ∀ row ∈ clearBelow (p :: pivot) others, row.length = size + extra :=
        square_clearBelow (all (p :: pivot) (by simp)) fun row member => all row (by simp [member])
      have lengths := (reduce_sizes shorter below).2
      have under := ih fewer shorter below
      have first : ((((List.zipWith Vec.scale (pivot.take size) later).foldl Vec.sub
          (pivot.drop size)).map (· / p)).getD c 0) = (pivot.getD (size + c) 0 -
            Vec.dot (pivot.take size) (later.map (·.getD c 0))) / p := by
        have knownSize : (pivot.drop size).length = extra := by simp [pivotSize]
        rw [Vec.getD_div, getD_foldl_sub (pivot.take size) knownSize lengths]
        simp
      intro row member
      rw [List.map_cons]
      dsimp only [List.tail_cons, List.headD_cons]
      rw [first]
      rcases List.mem_cons.mp (perm.mem_iff.mpr member) with rfl | among
      · rw [holds_cons]
        field_simp
        ring
      · obtain ⟨a, row, rfl⟩ := List.exists_cons_of_length_eq_add_one (all row (by simp [among]))
        have rowSize : row.length = size + extra := by simpa using all (a :: row) (by simp [among])
        refine holds_of_cleared some pivotSize rowSize (under _ ?_)
        exact List.mem_map.mpr ⟨a :: row, among, rfl⟩

theorem solve_exact {m : Matrix (Fin d) (Fin d) α} {v : Fin d → α} {answer : Vec α}
    (solved : Elimination.solve (Mat.of m) (Vec.of v) = .ok answer) :
    ∃ x, answer = Vec.of x ∧ m *ᵥ x = v := by
  have square : (Mat.of m).length = d := Vec.length_of _
  rw [Elimination.solve, square, if_pos (Vec.length_of v).symm] at solved
  obtain ⟨rows, reduced, solved⟩ := bind_eq_ok.mp solved
  cases solved
  have system : List.zipWith (fun row x => row ++ [x]) (Mat.of m) (Vec.of v) =
      List.ofFn fun i => Vec.of (m i) ++ [v i] := by
    apply List.ext_getElem
    · simp [Mat.of, Vec.of]
    · intro i hl hr
      simp [Mat.of, Vec.of]
  rw [system] at reduced
  have sizes : ∀ row ∈ List.ofFn fun i => Vec.of (m i) ++ [v i], row.length = d + 1 := by
    intro row member
    obtain ⟨i, rfl⟩ := List.mem_ofFn.mp member
    simp
  have holds := reduce_holds (c := 0) List.length_ofFn sizes reduced
  have heads : rows.map (·.headD 0) = rows.map (·.getD 0 0) := by
    refine List.map_congr_left fun row _ => ?_
    cases row <;> rfl
  have count : (rows.map (·.getD 0 0)).length = d := by
    rw [List.length_map, (reduce_sizes sizes reduced).1]
  rw [heads]
  refine ⟨Vec.entries d (rows.map (·.getD 0 0)), (Vec.of_entries count).symm, ?_⟩
  ext i
  have row := holds _ (List.mem_ofFn.mpr ⟨i, rfl⟩)
  rw [Holds, ← Vec.of_entries count] at row
  simpa [mulVec] using row

theorem inverse_exact {m : Matrix (Fin d) (Fin d) α} {answer : Mat α}
    (inverted : Elimination.inverse (Mat.of m) = .ok answer) :
    ∃ n, answer = Mat.of n ∧ m * n = 1 := by
  have count : (Mat.of m).length = d := Vec.length_of _
  rw [Elimination.inverse, count, Mat.identity_eq] at inverted
  let unit : Matrix (Fin d) (Fin d) α := 1
  have system : List.zipWith (· ++ ·) (Mat.of m) (Mat.of unit) =
      List.ofFn fun i => Vec.of (m i) ++ Vec.of (unit i) := by
    apply List.ext_getElem <;> simp [Mat.of, Vec.of]
  rw [system] at inverted
  have sizes : ∀ row ∈ List.ofFn fun i => Vec.of (m i) ++ Vec.of (unit i),
      row.length = d + d := by
    intro row member
    obtain ⟨i, rfl⟩ := List.mem_ofFn.mp member
    simp
  obtain ⟨n, rfl⟩ := Mat.exists_of (reduce_sizes sizes inverted)
  refine ⟨n, rfl, ?_⟩
  ext i j
  have row := reduce_holds (c := j) List.length_ofFn sizes inverted _ (List.mem_ofFn.mpr ⟨i, rfl⟩)
  have column : (Mat.of n).map (·.getD j 0) = Vec.of fun k => n k j := by
    apply List.ext_getElem <;> simp [Mat.of, Vec.of]
  have right : (Vec.of (m i) ++ Vec.of (unit i)).getD (d + j) 0 = unit i j := by simp [Vec.of]
  rw [Holds, column, right] at row
  simpa [mul_apply, dotProduct] using row

theorem solve_single {x : α} (some : x ≠ 0) (y : α) :
    solve [[x]] [y] = .ok [y / x] := by
  simp [solve, reduce, pivotFirst, some]

theorem inverse_single {x : α} (some : x ≠ 0) : inverse [[x]] = .ok [[1 / x]] := by
  simp [inverse, reduce, pivotFirst, Mat.identity, some]

end Elimination

namespace Rotation

theorem sweeps_single (fuel : Nat) (u : Vec α) : sweeps fuel [u] = [u] := by
  induction fuel with
  | zero => rfl
  | succ fuel ih => exact ih

theorem condition_single {x : α} (low : 1 ≤ x) (high : x ≤ large) :
    condition [[x]] = 1 := by
  have positive : 0 < x := by linarith
  have extent : extent [x] = x := by
    simp [extent, abs_of_pos positive, positive]
  have notLarge : ¬ large < x := not_lt.mpr high
  have notTiny : isTiny x = false := by
    have one : (1 : α) ≤ large := low.trans high
    have bound : 1 / large ≤ x := ((div_le_one (by linarith)).mpr one).trans low
    rw [one_div] at bound
    simp [isTiny, bound]
  have length : columnLength levelSteps [x] = x := by
    simp [levelSteps, columnLength, extent, notLarge, notTiny, Vec.norm, abs_of_pos positive]
  have values : singularValues levelSteps [[x]] = [x] := by
    have whole : Mat.transpose [[x]] = [[x]] := rfl
    have flat : [[x]].flatten = [x] := rfl
    rw [levelSteps, singularValues]
    simp only [flat, extent, notLarge, notTiny, if_false, whole, sweeps_single]
    simp [length]
  simp [condition, values, div_self positive.ne']

end Rotation

end Passwise
