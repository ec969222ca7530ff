import Passwise.Proofs.Layout
import Passwise.Proofs.Rounding

set_option autoImplicit false

namespace Passwise

namespace Double

open Float.Model Float.Model.UnpackedFloat

theorem unpack_ofNat_scaled {m k : Nat} (positive : 0 < m) (normal : m.log2 = 52) (inside : k < 972) :
    (Float.ofNat (m * 2 ^ k)).toModel.unpack = .finite .positive m k positive := by
  have rounded := round_normal positive normal (k + 53) (e := k) (by omega)
  have exponent : (k : Int) - (k + 53 : Nat) = -53 := by omega
  rw [exponent, Nat.pow_add, ← Nat.mul_assoc] at rounded
  rw [toModel_ofNat (by positivity), rounded, unpack_pack_normal positive normal (by omega),
    if_pos (by omega)]

theorem holds_scaled {m k : Nat} (positive : 0 < m) (normal : m.log2 = 52) (inside : k < 972) :
    Holds (m * 2 ^ k : Nat) := by
  have unpacked := unpack_ofNat_scaled positive normal inside
  refine hasValue_iff.mpr ⟨?_, ?_⟩
  · change (Float.ofNat (m * 2 ^ k)).toModel.unpack.isFinite = true
    rw [unpacked]
    rfl
  · change valueOf (Float.ofNat (m * 2 ^ k)).toModel.unpack = _
    rw [unpacked, valueOf_positive]
    push_cast
    rw [zpow_natCast]

theorem holds_truncate {x : Float} (above : 0 < Scalar.truncate x) : Holds (Scalar.truncate x) := by
  have known := ofFloat_eq_reading x
  have canonical := canonical_unpack x
  have nothing (negative : Bool) (e : Int) : ¬ 0 < Decimal.Dyadic.truncate ⟨negative, 0, e⟩ := by
    cases negative <;> simp [Decimal.Dyadic.truncate, Decimal.Dyadic.numerator]
  simp only [Scalar.truncate, known] at above ⊢
  rcases unpacked : x.toModel.unpack with _ | _ | _ | ⟨_ | _, m, e, positive⟩ <;>
    rw [unpacked] at above canonical
  · exact absurd above (lt_irrefl 0)
  · exact absurd above (lt_irrefl 0)
  · exact absurd above (nothing _ _)
  · have below : Decimal.Dyadic.truncate ⟨true, m, e⟩ ≤ 0 :=
      Int.neg_nonpos_of_nonneg (Int.natCast_nonneg _)
    exact absurd above below.not_gt
  · obtain ⟨upper, least, filled⟩ := canonical
    change Holds ((m * 2 ^ e.toNat / 2 ^ (-e).toNat : Nat) : Int)
    -- A fraction has fewer digits than a mantissa, a whole number is one that was shifted.
    rcases lt_or_ge e 0 with fraction | whole
    · rw [Int.toNat_of_nonpos fraction.le, Nat.pow_zero, Nat.mul_one]
      exact holds_ofNat ((Nat.div_le_self _ _).trans_lt upper)
    · have unscaled : (-e).toNat = 0 := by omega
      rw [unscaled, Nat.pow_zero, Nat.div_one]
      have normal := (Nat.log2_eq_iff positive.ne').mpr ⟨filled.resolve_right (by omega), upper⟩
      have inside := exponent_unpack_le unpacked
      exact holds_scaled positive normal (by omega)

end Double

theorem truncate_of_wholeCell {x : Float} {n : Int} (whole : wholeCell x = .ok n) :
    Scalar.truncate x = n := by
  unfold wholeCell at whole
  split_ifs at whole
  cases whole
  rfl

theorem Objective.code_of_getElem? {i : Nat} {o : Objective} (here : all[i]? = some o) :
    o.code = i := by
  rcases i with _ | _ | _ | _ | _ | i <;> cases here <;> rfl

theorem Objective.code_of_ofCode {n : Int} {o : Objective} (known : ofCode n = .ok o) :
    -5 ≤ n ∧ n < 5 ∧ (o.code : Int) = n % 5 := by
  have count : all.length = 5 := rfl
  have inside : o.code < 5 := by cases o <;> decide
  unfold ofCode at known
  rw [count] at known
  generalize index : (if n < 0 then n + (5 : Nat) else n) = k at known
  dsimp only at known
  split_ifs at known with below
  rcases here : all[k.toNat]? with _ | o' <;> rw [here] at known <;> cases known
  have code := code_of_getElem? here
  split_ifs at index <;> omega

theorem Method.beq_of_ofCell {x : Float} {m : Method} (known : ofCell x = .ok m) :
    (x == Scalar.ofNat m.code) = true := by
  unfold ofCell at known
  rcases found : all.find? fun m => x == Scalar.ofNat m.code with _ | m'
  · rw [found] at known
    cases known
  · rw [found] at known
    cases known
    simpa using List.find?_some found

theorem Task.make_eq_ok {dimension : Int} {o : Objective} {stepsize regularization : Float}
    {task : Task Float} (made : make dimension o stepsize regularization = .ok task) :
    0 < dimension ∧ dimension = task.dimension ∧ task.objective = o ∧ task.stepsize = stepsize ∧
      task.regularization = regularization := by
  unfold make at made
  split_ifs at made with positive
  cases made
  exact ⟨by omega, by simp; omega, rfl, rfl, rfl⟩

namespace Snapshot

structure Heads (cells : List Float) (s : Snapshot Float) (m : Method) : Prop where
  dimension : ∃ x, cells[0]? = some x ∧ Scalar.truncate x = s.task.dimension
  objective : ∃ x, cells[1]? = some x ∧ Objective.ofCode (Scalar.truncate x) = .ok s.task.objective
  stepsize : cells[2]? = some s.task.stepsize
  regularization : cells[3]? = some s.task.regularization
  code : ∃ x, cells[4]? = some x ∧ Method.ofCell x = .ok m
  method : s.method = .text m.name

variable {cells out : List Float} {s : Snapshot Float} {m : Method}

theorem getElem?_of_cellAt {i : Nat} {x : Float} (here : cellAt cells i = .ok x) :
    cells[i]? = some x := by
  unfold cellAt at here
  rcases found : cells[i]? with _ | y <;> rw [found] at here <;> cases here
  rfl

theorem heads_of_read (read : ofCells cells = .ok s) : ∃ m, Heads cells s m := by
  unfold ofCells at read
  obtain ⟨x₀, first, read⟩ := bind_eq_ok.mp read
  obtain ⟨d, dimension, read⟩ := bind_eq_ok.mp read
  dsimp only at read
  split_ifs at read with misfit
  · cases read
  obtain ⟨x₁, second, read⟩ := bind_eq_ok.mp read
  obtain ⟨n, code, read⟩ := bind_eq_ok.mp read
  obtain ⟨o, objective, read⟩ := bind_eq_ok.mp read
  obtain ⟨x₂, third, read⟩ := bind_eq_ok.mp read
  obtain ⟨x₃, fourth, read⟩ := bind_eq_ok.mp read
  obtain ⟨task, made, read⟩ := bind_eq_ok.mp read
  obtain ⟨x₄, fifth, read⟩ := bind_eq_ok.mp read
  obtain ⟨m, method, read⟩ := bind_eq_ok.mp read
  -- After the head: iteration, loss, two scalars, three vectors, the rows, and two whole numbers.
  iterate 10 obtain ⟨_, -, read⟩ := bind_eq_ok.mp read
  cases read
  obtain ⟨positive, same, rfl, rfl, rfl⟩ := Task.make_eq_ok made
  rw [← truncate_of_wholeCell code] at objective
  exact ⟨m, ⟨x₀, getElem?_of_cellAt first, (truncate_of_wholeCell dimension).trans same⟩,
    ⟨x₁, getElem?_of_cellAt second, objective⟩, getElem?_of_cellAt third,
    getElem?_of_cellAt fourth, ⟨x₄, getElem?_of_cellAt fifth, method⟩, rfl⟩

-- The code of the objective is the one in its cell modulo the number of objectives.
inductive Rewritten : List Float → List Float → Prop
  | head {x₀ x₁ x₂ x₃ x₄ y₀ y₁ y₄ : Float} {rest rest' : List Float} :
      0 < Scalar.truncate x₀ → Double.HasValue y₀ (Scalar.truncate x₀) →
      -5 ≤ Scalar.truncate x₁ → Scalar.truncate x₁ < 5 →
      Double.HasValue y₁ (Scalar.truncate x₁ % 5 : Int) →
      Scalar.isAdmissible x₂ = true → Scalar.isAdmissible x₃ = true → (y₄ == x₄) = true →
      Rewritten (x₀ :: x₁ :: x₂ :: x₃ :: x₄ :: rest) (y₀ :: y₁ :: x₂ :: x₃ :: y₄ :: rest')

def Natural (cells : List Float) : Prop :=
  ∃ (x y : Float) (d o : Nat), cells[0]? = some x ∧ cells[1]? = some y ∧
    Double.HasValue x (d : Int) ∧ Double.HasValue y (o : Int)

theorem Rewritten.beq_iff (rewritten : Rewritten cells out) :
    (out.take 5 == cells.take 5) = true ↔ Natural cells := by
  cases rewritten with
  | @head x₀ x₁ x₂ x₃ x₄ y₀ y₁ y₄ rest rest' positive dimension least most code stepsize
      regularization method =>
    have parts : ((y₀ :: y₁ :: x₂ :: x₃ :: y₄ :: rest').take 5 ==
        (x₀ :: x₁ :: x₂ :: x₃ :: x₄ :: rest).take 5) =
      (y₀ == x₀ && (y₁ == x₁ && (x₂ == x₂ && (x₃ == x₃ && (y₄ == x₄ && true))))) := rfl
    rw [parts, Double.beq_self (Double.number_of_isAdmissible stepsize),
      Double.beq_self (Double.number_of_isAdmissible regularization), method]
    simp only [Bool.and_true, Bool.and_eq_true, dimension.beq_iff, code.beq_iff]
    constructor
    · rintro ⟨first, second⟩
      obtain ⟨d, natural⟩ := Int.eq_ofNat_of_zero_le positive.le
      obtain ⟨o, natural'⟩ := Int.eq_ofNat_of_zero_le (Int.emod_nonneg (Scalar.truncate x₁)
        (show (5 : Int) ≠ 0 by decide))
      exact ⟨x₀, x₁, d, o, rfl, rfl, natural ▸ first, natural' ▸ second⟩
    · rintro ⟨_, _, d, o, ⟨⟩, ⟨⟩, first, second⟩
      rw [second.truncate] at most
      rw [first.truncate, second.truncate, Int.emod_eq_of_lt (by omega) most]
      exact ⟨first, second⟩

theorem Heads.rewritten (heads : Heads cells s m) : Rewritten cells (s.cells m) := by
  obtain ⟨⟨x₀, first, dimension⟩, ⟨x₁, second, objective⟩, third, fourth, ⟨x₄, fifth, code⟩, -⟩ :=
    heads
  obtain ⟨rest, rfl⟩ : ∃ rest, cells =
      x₀ :: x₁ :: s.task.stepsize :: s.task.regularization :: x₄ :: rest := by
    rcases cells with _ | ⟨a, _ | ⟨b, _ | ⟨c, _ | ⟨d, _ | ⟨e, rest⟩⟩⟩⟩⟩
    all_goals cases fifth
    cases first
    cases second
    cases third
    cases fourth
    exact ⟨rest, rfl⟩
  obtain ⟨least, most, same⟩ := Objective.code_of_ofCode objective
  have positive := s.task.dimension_pos
  have front : s.headCells m <+: s.cells m := by simp [Snapshot.cells]
  obtain ⟨rest', shape⟩ := front
  rw [← shape]
  refine .head (by omega) ?_ least most ?_ s.task.stepsize_admissible
    s.task.regularization_admissible (Double.beq_comm.mp (Method.beq_of_ofCell code))
  · have held := Double.holds_truncate (x := x₀) (by omega)
    rwa [dimension] at held ⊢
  · rw [← same]
    exact Double.holds_ofNat (by cases s.task.objective <;> decide)

theorem head_of_read (read : ofCells cells = .ok s) :
    ∃ out, s.toCells = .ok out ∧ Rewritten cells out ∧
      ((out.take 5 == cells.take 5) = true ↔ Natural cells) := by
  obtain ⟨m, heads⟩ := heads_of_read read
  exact ⟨_, toCells_eq heads.method, heads.rewritten, heads.rewritten.beq_iff⟩

def coded (code : Float) : List Float :=
  [1, code, 0.5, 0.25, 2, -3, 4, 1, 0, 8, 0, 0, 0, 1, 0, 0, 6]

theorem exists_read {c : Float} {o : Objective}
    (known : ((ofCells (coded c)).toOption.map (·.task.objective)) = some o) :
    ∃ s, ofCells (coded c) = .ok s ∧ s.task.objective = o := by
  obtain ⟨s, read, objective⟩ := Option.map_eq_some_iff.mp known
  exact ⟨s, eq_ok_of_toOption read, objective⟩

theorem head_of_read_logistic :
    ∃ s out, ofCells (coded 1) = .ok s ∧ s.toCells = .ok out ∧
      (out.take 5 == (coded 1).take 5) = true := by
  obtain ⟨s, read, -⟩ := exists_read (c := 1) (o := .logistic) (by decide +kernel)
  obtain ⟨out, written, -, same⟩ := head_of_read read
  have one : Double.HasValue 1 (1 : Int) := Double.holds_ofNat (n := 1) (by decide)
  exact ⟨s, out, read, written, same.mpr ⟨1, 1, 1, 1, rfl, rfl, one, one⟩⟩

theorem negative_code_read :
    ∃ s out, ofCells (coded (-1)) = .ok s ∧ s.task.objective = .cox ∧ s.toCells = .ok out ∧
      (out.take 5 == (coded (-1)).take 5) = false := by
  obtain ⟨s, read, objective⟩ := exists_read (c := -1) (o := .cox) (by decide +kernel)
  obtain ⟨m, heads⟩ := heads_of_read read
  refine ⟨s, _, read, objective, toCells_eq heads.method, ?_⟩
  rw [← Bool.not_eq_true, heads.rewritten.beq_iff]
  rintro ⟨_, _, d, o, ⟨⟩, ⟨⟩, -, natural⟩
  have code : Scalar.truncate (-1 : Float) = -1 := by decide +kernel
  have same := natural.truncate.symm.trans code
  omega

end Snapshot

end Passwise
