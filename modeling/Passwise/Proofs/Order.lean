import Passwise.Proofs.Raising

set_option autoImplicit false

namespace Passwise

namespace Double

open Float.Model Float.Model.UnpackedFloat

theorem exists_compare {u v : UnpackedFloat} (number : u ≠ .notANumber)
    (number' : v ≠ .notANumber) : ∃ order, u.compare v = some order := by
  rcases u with ⟨_ | _⟩ | _ | _ | ⟨_ | _, _, _, _⟩ <;>
    rcases v with ⟨_ | _⟩ | _ | _ | ⟨_ | _, _, _, _⟩
  all_goals first | exact absurd rfl number | exact absurd rfl number' | exact ⟨_, rfl⟩

variable {x y z : Float} {r : ℝ}

theorem lt_iff_compare :
    x < y ↔ x.toModel.unpack.compare y.toModel.unpack = some .lt := by
  have order : x < y ↔ x.toModel.unpack.lt y.toModel.unpack = true := decide_eq_true_iff
  rw [order, UnpackedFloat.lt, beq_iff_eq]

theorem le_iff_compare :
    x ≤ y ↔ (x.toModel.unpack.compare y.toModel.unpack).any (·.isLE) = true := by
  have order : x ≤ y ↔ x.toModel.unpack.le y.toModel.unpack = true := decide_eq_true_iff
  rw [order, UnpackedFloat.le]

theorem le_of_lt (below : x < y) : x ≤ y := by
  rw [le_iff_compare, lt_iff_compare.mp below]
  rfl

theorem not_ge_of_lt (below : x < y) : ¬ y ≤ x := fun above =>
  not_le_of_lt (decide_eq_true_iff.mp below) (decide_eq_true_iff.mp above)

theorem numbers_of_le (below : x ≤ y) : Scalar.isNaN x = false ∧ Scalar.isNaN y = false := by
  rw [le_iff_compare] at below
  rw [← Bool.not_eq_true, ← Bool.not_eq_true, isNaN_iff, isNaN_iff]
  refine ⟨fun undefined => ?_, fun undefined => ?_⟩
  · rw [undefined] at below
    cases below
  · rw [undefined, compare_swap .notANumber] at below
    cases below

theorem not_lt_of_isNaN (undefined : Scalar.isNaN x = true ∨ Scalar.isNaN y = true) :
    ¬ x < y := by
  intro below
  have numbers := numbers_of_le (le_of_lt below)
  simp [numbers] at undefined

theorem le_of_not_lt (number : Scalar.isNaN x = false) (number' : Scalar.isNaN y = false)
    (above : ¬ x < y) : y ≤ x := by
  obtain ⟨order, known⟩ := exists_compare (ne_notANumber number) (ne_notANumber number')
  rw [lt_iff_compare, known] at above
  rw [le_iff_compare, compare_swap, known]
  cases order with
  | lt => exact absurd rfl above
  | eq | gt => rfl

theorem le_self (number : Scalar.isNaN x = false) : x ≤ x := (le_iff number number).mpr le_rfl

theorem le_trans (first : x ≤ y) (second : y ≤ z) : x ≤ z := by
  obtain ⟨left, middle⟩ := numbers_of_le first
  have right := (numbers_of_le second).2
  rw [le_iff left middle] at first
  rw [le_iff middle right] at second
  exact (le_iff left right).mpr (first.trans second)

theorem lt_of_lt_of_le (first : x < y) (second : y ≤ z) : x < z := by
  by_contra above
  have left := (numbers_of_le (le_of_lt first)).1
  have right := (numbers_of_le second).2
  exact not_ge_of_lt first (le_trans second (le_of_not_lt left right above))

theorem isNaN_of_isFinite (finite : Scalar.isFinite x = true) : Scalar.isNaN x = false := by
  have inside : x.toModel.unpack.isFinite = true := finite
  rw [← Bool.not_eq_true, isNaN_iff]
  intro undefined
  rw [undefined] at inside
  cases inside

theorem number_of_isAdmissible {x : Float} (admissible : Scalar.isAdmissible x = true) :
    Scalar.isNaN x = false := by
  rw [Scalar.isAdmissible, Bool.and_eq_true] at admissible
  exact isNaN_of_isFinite admissible.1

theorem beq_iff_le : (x == y) = true ↔ x ≤ y ∧ y ≤ x := by
  have same : (x == y) = (x.toModel.unpack.compare y.toModel.unpack == some .eq) := rfl
  rw [same, le_iff_compare, le_iff_compare, compare_swap x.toModel.unpack]
  cases x.toModel.unpack.compare y.toModel.unpack with
  | none => simp
  | some order => cases order <;> decide

theorem beq_comm : (x == y) = true ↔ (y == x) = true := by
  rw [beq_iff_le, beq_iff_le, and_comm]

theorem hasValue_of_extended (number : Scalar.isNaN y = false)
    (same : extended y.toModel.unpack = r) : HasValue y r := by
  rw [hasValue_iff]
  have known := ne_notANumber number
  generalize y.toModel.unpack = u at same known
  rcases u with ⟨_ | _⟩ | _ | _ | _
  · exact absurd same (EReal.bot_ne_coe r)
  · exact absurd same (EReal.top_ne_coe r)
  · exact absurd rfl known
  · exact ⟨rfl, EReal.coe_injective same⟩
  · exact ⟨rfl, EReal.coe_injective same⟩

theorem HasValue.beq_iff (value : HasValue x r) : (x == y) = true ↔ HasValue y r := by
  rw [beq_iff_le]
  constructor
  · rintro ⟨above, below⟩
    have number := (numbers_of_le above).2
    refine hasValue_of_extended number ?_
    rw [← value.extended]
    exact le_antisymm ((le_iff number value.number).mp below)
      ((le_iff value.number number).mp above)
  · intro other
    rw [le_iff value.number other.number, le_iff other.number value.number, value.extended,
      other.extended]
    exact ⟨le_rfl, le_rfl⟩

theorem beq_self (number : Scalar.isNaN x = false) : (x == x) = true :=
  beq_iff_le.mpr ⟨le_self number, le_self number⟩

end Double

end Passwise
