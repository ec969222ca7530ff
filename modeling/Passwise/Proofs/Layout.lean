import Passwise.Proofs.Values
import Passwise.Proofs.Findings

set_option autoImplicit false

namespace Passwise

def IsWhole (x : Float) : Prop := ∃ n : Int, wholeCell x = .ok n ∧ Scalar.ofInt n = x

theorem Decimal.Dyadic.truncate_of_value {value : Dyadic} {n : Int}
    (same : (value.signedNumerator : ℝ) / value.denominator = n) : value.truncate = n := by
  have positive : (0 : ℝ) < value.denominator := by exact_mod_cast value.denominator_pos
  rw [div_eq_iff positive.ne'] at same
  have whole : value.signedNumerator = n * value.denominator := by exact_mod_cast same
  have nonzero : (value.denominator : Int) ≠ 0 := by exact_mod_cast value.denominator_pos.ne'
  rw [truncate, Int.ofNat_eq_natCast, Int.natCast_ediv]
  rw [signedNumerator] at whole
  split_ifs at whole ⊢
  · have opposite : (value.numerator : Int) = -n * value.denominator := by
      rw [neg_mul, ← whole, neg_neg]
    rw [opposite, Int.mul_ediv_cancel _ nonzero, neg_neg]
  · rw [whole, Int.mul_ediv_cancel _ nonzero]

namespace Double

theorem HasValue.truncate {x : Float} {n : Int} (value : HasValue x n) :
    Scalar.truncate x = n := by
  obtain ⟨dyadic, known, same⟩ := value
  simp only [Scalar.truncate, known]
  exact Decimal.Dyadic.truncate_of_value same

def Holds (n : Int) : Prop := HasValue (Scalar.ofInt n) n

theorem holds_ofNat {n : Nat} (small : n < 2 ^ 53) : Holds n := by
  rcases Nat.eq_zero_or_pos n with rfl | positive
  -- Zero is the one whole number that does not fill the mantissa.
  · refine ⟨⟨false, 0, -1074⟩, by rfl, ?_⟩
    rw [value_dyadic, if_neg Bool.false_ne_true, Nat.cast_zero, zero_mul, Int.natCast_zero,
      Int.cast_zero]
  · have below : n.log2 < 53 := (Nat.log2_lt positive.ne').mpr small
    have value := valueOf_ofNormal (filled_pos positive) (log2_filled positive small)
      (n.log2 + 1023) (by omega) (by omega)
    rw [← ofNat_eq_ofNormal positive small] at value
    refine ⟨_, value, ?_⟩
    have down : (((n.log2 + 1023 : Nat) : Int) - 1075) = -((52 - n.log2 : Nat) : Int) := by omega
    rw [value_dyadic, filled, down, zpow_neg, zpow_natCast]
    simp

theorem Holds.wholeCell {n : Int} (holds : Holds n) :
    wholeCell (Scalar.ofInt n : Float) = .ok n := by
  obtain ⟨finite, -⟩ := hasValue_iff.mp holds
  obtain ⟨value, known, same⟩ := holds
  rw [wholeCell_of_value finite known, Decimal.Dyadic.truncate_of_value same]

theorem wholeCell_ofNat {n : Nat} (small : n < 2 ^ 53) :
    Passwise.wholeCell (Scalar.ofNat n : Float) = .ok n :=
  (holds_ofNat small).wholeCell

theorem Holds.isWhole {n : Int} (holds : Holds n) : IsWhole (Scalar.ofInt n) :=
  ⟨n, holds.wholeCell, rfl⟩

end Double

theorem isWhole_ofNat {n : Nat} (small : n < 2 ^ 53) : IsWhole (Scalar.ofNat n) :=
  (Double.holds_ofNat small).isWhole

theorem Method.ofCell_code (m : Method) : ofCell (Scalar.ofNat m.code : Float) = .ok m := by
  cases m <;> rfl

theorem Objective.ofCode_code (o : Objective) : ofCode o.code = .ok o := by
  cases o <;> rfl

theorem scalarCell?_getD (x : Option Float) :
    scalarCell? (x.getD Scalar.missing) = x.bind scalarCell? := by
  cases x <;> rfl

theorem bind_scalarCell? {x : Option Float} (number : ∀ y ∈ x, Scalar.isNaN y = false) :
    x.bind scalarCell? = x := by
  cases x with
  | none => rfl
  | some y => exact if_neg (by rw [number y rfl]; exact Bool.false_ne_true)

theorem flagCell_beq (present : Bool) : ((flagCell present : Float) == 0) = !present := by
  cases present <;> rfl

section Blocks

variable {α : Type} {cells before block : List α}

theorem cellAt_of_prefix (front : before ++ block <+: cells) {i j : Nat} {x : α}
    (inside : block[j]? = some x) (position : before.length + j = i) :
    cellAt cells i = .ok x := by
  obtain ⟨after, rfl⟩ := front
  subst position
  have within : j < block.length := (List.getElem?_eq_some_iff.mp inside).1
  rw [cellAt, List.append_assoc, List.getElem?_append_right (by omega), Nat.add_sub_cancel_left,
    List.getElem?_append_left within, inside]

theorem take_of_prefix (front : before ++ block <+: cells) {i d : Nat}
    (position : before.length = i) (size : block.length = d) : (cells.drop i).take d = block := by
  obtain ⟨after, rfl⟩ := front
  subst position size
  simp

end Blocks

namespace Snapshot

structure Sized {α : Type} [Scalar α] (s : Snapshot α) : Prop where
  model : s.model.length = s.task.dimension
  memory : s.memory.Fits s.task.dimension
  inverseDiagonal : ∀ v ∈ s.inverseDiagonal, v.length = s.task.dimension

theorem Fits.sized {α : Type} [Scalar α] {d : Nat} {s : Snapshot α} (fits : s.Fits d) :
    s.Sized := by
  obtain rfl := fits.dimension
  exact ⟨fits.model, fits.memory, fits.inverseDiagonal⟩

variable {d : Nat} (m : Method) (s : Snapshot Float)

def headCells : List Float :=
  [Scalar.ofNat s.task.dimension, Scalar.ofNat s.task.objective.code, s.task.stepsize,
    s.task.regularization, Scalar.ofNat m.code]

def foundCells : List Float :=
  [s.memory.iteration, s.loss, s.gradientNorm.getD Scalar.missing, s.condition.getD Scalar.missing]

def orZeros (v : Option (Vec Float)) : Vec Float := v.getD (Vec.zeros s.task.dimension)

def lastCells : List Float :=
  [flagCell s.memory.direction.isSome, flagCell s.memory.previousGradient.isSome,
    flagCell s.inverseDiagonal.isSome, s.rows]

def cells : List Float :=
  s.headCells m ++ s.model ++ s.foundCells ++ s.orZeros s.memory.direction ++
    s.orZeros s.memory.previousGradient ++ s.orZeros s.inverseDiagonal ++ s.lastCells

def readBack : Snapshot Float :=
  { s with
    gradientNorm := s.gradientNorm.bind scalarCell?
    condition := s.condition.bind scalarCell? }

variable {m s}

theorem toCells_eq (method : s.method = .text m.name) : s.toCells = .ok (s.cells m) := by
  have maker : s.maker = .ok m := by
    rw [Snapshot.maker, method]
    dsimp only
    rw [Method.ofName?_name]
    rfl
  unfold toCells
  rw [maker, ok_bind]
  change Except.ok _ = _
  rw [List.append_assoc _ _ [s.rows]]
  rfl

theorem length_orZeros {v : Option (Vec Float)} (size : ∀ u ∈ v, u.length = s.task.dimension) :
    (s.orZeros v).length = s.task.dimension := by
  cases v with
  | none => exact Vec.length_zeros _
  | some u => exact size u rfl

theorem ite_flagCell (v : Option (Vec Float)) :
    (if (flagCell v.isSome : Float) == 0 then none else some (s.orZeros v)) = v := by
  rw [flagCell_beq]
  cases v <;> rfl

theorem length_cells (sized : s.Sized) : (s.cells m).length = cellCount s.task.dimension := by
  simp only [cells, cellCount, List.length_append, headCells, foundCells, lastCells,
    List.length_cons, List.length_nil, sized.model, length_orZeros sized.memory.direction,
    length_orZeros sized.memory.previousGradient, length_orZeros sized.inverseDiagonal]
  omega

theorem getLast?_cells : (s.cells m).getLast? = some s.rows := by
  rw [cells, List.getLast?_append]
  rfl

section Reading

variable (m) (sized : s.Sized) {i j : Nat} {x : Float}

theorem read_head (inside : (s.headCells m)[i]? = some x) : cellAt (s.cells m) i = .ok x := by
  have front : [] ++ s.headCells m <+: s.cells m := by simp [cells]
  exact cellAt_of_prefix front inside (Nat.zero_add i)

include sized

theorem read_model : ((s.cells m).drop 5).take s.task.dimension = s.model := by
  have front : s.headCells m ++ s.model <+: s.cells m := by simp [cells]
  exact take_of_prefix front rfl sized.model

theorem read_found (inside : s.foundCells[j]? = some x) (position : 5 + s.task.dimension + j = i) :
    cellAt (s.cells m) i = .ok x := by
  have front : s.headCells m ++ s.model ++ s.foundCells <+: s.cells m := by simp [cells]
  refine cellAt_of_prefix front inside ?_
  rw [List.length_append, sized.model]
  exact position

theorem length_front :
    (s.headCells m ++ s.model ++ s.foundCells).length = 9 + s.task.dimension := by
  rw [List.length_append, List.length_append, sized.model]
  change 5 + _ + 4 = _
  omega

theorem read_direction : ((s.cells m).drop (9 + s.task.dimension)).take s.task.dimension =
    s.orZeros s.memory.direction := by
  have front : s.headCells m ++ s.model ++ s.foundCells ++ s.orZeros s.memory.direction <+:
      s.cells m := by
    simp [cells]
  exact take_of_prefix front (length_front m sized) (length_orZeros sized.memory.direction)

theorem read_previousGradient :
    ((s.cells m).drop (9 + 2 * s.task.dimension)).take s.task.dimension =
      s.orZeros s.memory.previousGradient := by
  have front : s.headCells m ++ s.model ++ s.foundCells ++ s.orZeros s.memory.direction ++
      s.orZeros s.memory.previousGradient <+: s.cells m := by
    simp [cells]
  refine take_of_prefix front ?_ (length_orZeros sized.memory.previousGradient)
  rw [List.length_append, length_front m sized, length_orZeros sized.memory.direction]
  omega

theorem read_inverseDiagonal :
    ((s.cells m).drop (9 + 3 * s.task.dimension)).take s.task.dimension =
      s.orZeros s.inverseDiagonal := by
  have front : s.headCells m ++ s.model ++ s.foundCells ++ s.orZeros s.memory.direction ++
      s.orZeros s.memory.previousGradient ++ s.orZeros s.inverseDiagonal <+: s.cells m := by
    simp [cells]
  refine take_of_prefix front ?_ (length_orZeros sized.inverseDiagonal)
  rw [List.length_append, List.length_append, length_front m sized,
    length_orZeros sized.memory.direction, length_orZeros sized.memory.previousGradient]
  omega

theorem read_last (inside : s.lastCells[j]? = some x)
    (position : 9 + 4 * s.task.dimension + j = i) : cellAt (s.cells m) i = .ok x := by
  have front : s.headCells m ++ s.model ++ s.foundCells ++ s.orZeros s.memory.direction ++
      s.orZeros s.memory.previousGradient ++ s.orZeros s.inverseDiagonal ++ s.lastCells <+:
      s.cells m := by
    simp [cells]
  refine cellAt_of_prefix front inside ?_
  rw [List.length_append, List.length_append, List.length_append, length_front m sized,
    length_orZeros sized.memory.direction, length_orZeros sized.memory.previousGradient,
    length_orZeros sized.inverseDiagonal, ← position]
  omega

end Reading

theorem ofCells_cells (sized : s.Sized) (method : s.method = .text m.name)
    (dimension : wholeCell (Scalar.ofNat s.task.dimension : Float) = .ok s.task.dimension)
    (rows : IsWhole s.rows) (iteration : IsWhole s.memory.iteration) :
    ofCells (s.cells m) = .ok s.readBack := by
  have count := length_cells (m := m) sized
  obtain ⟨r, wholeRows, sameRows⟩ := rows
  obtain ⟨i, wholeIteration, sameIteration⟩ := iteration
  have code : wholeCell (Scalar.ofNat s.task.objective.code : Float) =
      .ok s.task.objective.code :=
    Double.wholeCell_ofNat (by cases s.task.objective <;> decide)
  have sizes : (decide ((s.task.dimension : Int) ≤ 0) ||
      (s.cells m).length != cellCount (s.task.dimension : Int).toNat) = false := by
    have positive := s.task.dimension_pos
    simp [count]
    omega
  have found (j : Nat) (x : Float) (inside : s.foundCells[j]? = some x) :
      cellAt (s.cells m) (5 + j + s.task.dimension) = .ok x :=
    read_found m sized inside (Nat.add_right_comm 5 s.task.dimension j)
  have last (j : Nat) (x : Float) (inside : s.lastCells[j]? = some x) :
      cellAt (s.cells m) (9 + j + 4 * s.task.dimension) = .ok x :=
    read_last m sized inside (Nat.add_right_comm 9 (4 * s.task.dimension) j)
  unfold ofCells
  rw [read_head m rfl, ok_bind, dimension, ok_bind]
  dsimp only
  rw [sizes]
  simp only [Bool.false_eq_true, if_false, Int.toNat_natCast]
  rw [read_head m rfl, ok_bind, code, ok_bind, Objective.ofCode_code, ok_bind, read_head m rfl,
    ok_bind, read_head m rfl, ok_bind, Task.make_of_task, ok_bind, read_head m rfl, ok_bind,
    Method.ofCell_code, ok_bind, found 0 _ rfl, ok_bind, found 1 _ rfl, ok_bind, found 2 _ rfl,
    ok_bind, found 3 _ rfl, ok_bind, last 0 _ rfl, ok_bind, last 1 _ rfl, ok_bind, last 2 _ rfl,
    ok_bind, read_direction m sized, read_previousGradient m sized, read_inverseDiagonal m sized,
    ite_flagCell, ite_flagCell, ite_flagCell]
  simp only [pure_ok, ok_bind]
  rw [last 3 _ rfl, ok_bind, wholeRows, ok_bind, wholeIteration, ok_bind, read_model m sized,
    sameRows, sameIteration, scalarCell?_getD, scalarCell?_getD, ← method]
  rfl

theorem readBack_of_fits (fits : s.Fits d) (dimension : Double.Holds d) (rows : IsWhole s.rows)
    (iteration : IsWhole s.memory.iteration) :
    ∃ cells, s.toCells = .ok cells ∧ cells.length = cellCount d ∧
      ofCells cells = .ok s.readBack := by
  obtain ⟨m, method⟩ := fits.method
  obtain rfl := fits.dimension
  exact ⟨s.cells m, toCells_eq method, length_cells fits.sized,
    ofCells_cells fits.sized method dimension.wholeCell rows iteration⟩

theorem readBack_eq (gradientNorm : ∀ x ∈ s.gradientNorm, Scalar.isNaN x = false)
    (condition : ∀ x ∈ s.condition, Scalar.isNaN x = false) : s.readBack = s := by
  rw [readBack, bind_scalarCell? gradientNorm, bind_scalarCell? condition]

theorem ofCells_toCells {iteration rows : Int} (method : s.method = .text m.name)
    (sized : s.Sized) (gradientNorm : ∀ x ∈ s.gradientNorm, Scalar.isNaN x = false)
    (condition : ∀ x ∈ s.condition, Scalar.isNaN x = false)
    (dimension : Double.Holds s.task.dimension)
    (counted : s.memory.iteration = Scalar.ofInt iteration) (countHeld : Double.Holds iteration)
    (seen : s.rows = Scalar.ofInt rows) (rowsHeld : Double.Holds rows) :
    ∃ cells, s.toCells = .ok cells ∧ ofCells cells = .ok s ∧
      cells.length = 4 * s.task.dimension + 13 ∧ cells.getLast? = some s.rows := by
  refine ⟨s.cells m, toCells_eq method, ?_, length_cells sized, getLast?_cells⟩
  have whole := ofCells_cells sized method dimension.wholeCell (seen ▸ rowsHeld.isWhole)
    (counted ▸ countHeld.isWhole)
  rwa [readBack_eq gradientNorm condition] at whole

def mixed : Snapshot Float where
  task := ⟨2, .logistic, 0.75, 0.25, by decide, by decide +kernel, by decide +kernel⟩
  model := [1.5, -2]
  loss := 1 / 0
  rows := Scalar.ofInt 9007199254740994
  method := .text Conjugate.name
  memory := ⟨Scalar.ofInt 3, some [0, -0], none⟩
  gradientNorm := none
  condition := some 8
  inverseDiagonal := some [1, 0 / 0]

theorem ofCells_toCells_mixed :
    mixed.Sized ∧ Double.Holds 2 ∧ Double.Holds 3 ∧ Double.Holds 9007199254740994 ∧
    ∃ cells, mixed.toCells = .ok cells ∧ ofCells cells = .ok mixed ∧ cells.length = 21 ∧
      cells.getLast? = some (Scalar.ofInt 9007199254740994) := by
  have two : Double.Holds 2 := Double.holds_ofNat (n := 2) (by decide)
  have three : Double.Holds 3 := Double.holds_ofNat (n := 3) (by decide)
  have rows : Double.Holds 9007199254740994 := ⟨⟨false, 4503599627370497, 1⟩, by rfl, by
    rw [Double.value_dyadic]
    norm_num⟩
  have sized : mixed.Sized := ⟨rfl, ⟨by simp [mixed], by simp [mixed]⟩, by simp [mixed]⟩
  have number : Scalar.isNaN (8 : Float) = false := by decide +kernel
  exact ⟨sized, two, three, rows, ofCells_toCells (m := .conjugate) rfl sized
    (by simp [mixed]) (by simpa [mixed] using number) two rfl three rfl rows⟩

end Snapshot

end Passwise
