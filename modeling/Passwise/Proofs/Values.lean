import Mathlib
import Passwise.Proofs.Doubles
import Passwise.Proofs.Reals

set_option autoImplicit false

namespace Passwise.Double

open Float.Model Float.Model.UnpackedFloat

def reading : UnpackedFloat → Decimal.Value
  | .notANumber => .notANumber
  | .infinity sign => .infinite (sign == .negative)
  | .zero sign => .finite ⟨sign == .negative, 0, -1074⟩
  | .finite sign m e _ => .finite ⟨sign == .negative, m, e⟩

theorem toNat_unpackMantissa (b : BitVec 64) :
    (@unpackMantissa Format.binary64 b).toNat = b.toNat % 2 ^ 52 := by
  simp [unpackMantissa]

theorem toNat_unpackExponent (b : BitVec 64) :
    (@unpackExponent Format.binary64 b).toNat = b.toNat / 2 ^ 52 % 2 ^ 11 := by
  simp [unpackExponent, Nat.shiftRight_eq_div_pow]

theorem toNat_unpackSign (b : BitVec 64) :
    (@unpackSign Format.binary64 b).toNat = b.toNat / 2 ^ 63 := by
  have small : b.toNat < 2 ^ 64 := b.isLt
  simp [unpackSign, Nat.shiftRight_eq_div_pow]
  omega

theorem ofBitVec_beq_negative (b : BitVec 1) :
    (Sign.ofBitVec b == .negative) = (b.toNat == 1) := by
  revert b
  decide

theorem ofFloat_eq_reading (x : Float) :
    Decimal.Value.ofFloat x = reading x.toModel.unpack := by
  change _ = reading (UnpackedFloat.unpack Format.binary64 x.toBits.toBitVec)
  have bits : x.toBits.toNat = x.toBits.toBitVec.toNat := rfl
  unfold Decimal.Value.ofFloat
  rw [bits]
  generalize x.toBits.toBitVec = b
  have sign := ofBitVec_beq_negative (@unpackSign Format.binary64 b)
  rw [toNat_unpackSign] at sign
  have mantissa := toNat_unpackMantissa b
  have exponent := toNat_unpackExponent b
  have all : @unpackExponent Format.binary64 b = -1#11 ↔
      b.toNat / 2 ^ 52 % 2 ^ 11 = 2047 := by
    rw [← exponent, ← BitVec.toNat_inj]
    rfl
  have subnormal : @unpackExponent Format.binary64 b = 0#11 ↔
      b.toNat / 2 ^ 52 % 2 ^ 11 = 0 := by
    rw [← exponent, ← BitVec.toNat_inj]
    rfl
  have nothing : @unpackMantissa Format.binary64 b = 0#52 ↔ b.toNat % 2 ^ 52 = 0 := by
    rw [← mantissa, ← BitVec.toNat_inj]
    rfl
  unfold UnpackedFloat.unpack
  simp only [all, subnormal, nothing, Nat.pow_eq]
  split_ifs with infinite empty small zero
  · simp only [reading, sign]
  · rfl
  · simp only [reading, sign, zero]
  · simp only [reading, sign, mantissa, exponent, small]
    rfl
  · have leading : (1#1 ++ @unpackMantissa Format.binary64 b).toNat =
        2 ^ 52 + b.toNat % 2 ^ 52 := by
      rw [← mantissa]
      exact (toNat_append _ _).trans (by simp)
    simp only [reading, sign, leading, exponent]
    rfl

def Canonical : UnpackedFloat → Prop
  | .finite _ m e _ => m < 2 ^ 53 ∧ -1074 ≤ e ∧ (2 ^ 52 ≤ m ∨ e = -1074)
  | _ => True

theorem canonical_unpack (x : Float) : Canonical x.toModel.unpack := by
  change Canonical (UnpackedFloat.unpack Format.binary64 x.toBits.toBitVec)
  generalize x.toBits.toBitVec = b
  unfold UnpackedFloat.unpack
  have fraction : (@unpackMantissa Format.binary64 b).toNat < 2 ^ 52 := BitVec.isLt _
  dsimp only
  split_ifs with infinite empty small zero
  · trivial
  · trivial
  · trivial
  · rw [small]
    exact ⟨fraction.trans (by norm_num), by decide, .inr (by decide)⟩
  · have leading : (1#1 ++ @unpackMantissa Format.binary64 b).toNat =
        2 ^ 52 + (@unpackMantissa Format.binary64 b).toNat :=
      (toNat_append _ _).trans (by simp)
    have notNone : (@unpackExponent Format.binary64 b).toNat ≠ 0 := fun none =>
      small (BitVec.toNat_inj.mp none)
    have bias : Format.binary64.exponentBias = 1023 := rfl
    rw [Canonical, leading, bias]
    refine ⟨by omega, ?_, .inl (by omega)⟩
    change -1074 ≤ _ - ((1023 : Int) + 52)
    omega

noncomputable def valueOf : UnpackedFloat → ℝ
  | .finite sign m e _ => (sign.apply m : ℤ) * (2 : ℕ) ^ e
  | _ => 0

-- The value on the extended line, zero for what is not a number.
noncomputable def extended : UnpackedFloat → EReal
  | .infinity .positive => ⊤
  | .infinity .negative => ⊥
  | u => valueOf u

theorem scaled_lt {m n : Nat} {e f : Int} (below : e < f) (small : m < 2 ^ 53)
    (filled : 2 ^ 52 ≤ n) : (m : ℝ) * 2 ^ e < n * 2 ^ f := by
  have top : (m : ℝ) < 2 ^ (53 : Int) := by exact_mod_cast small
  have least : (2 : ℝ) ^ (52 : Int) ≤ n := by exact_mod_cast filled
  calc (m : ℝ) * 2 ^ e < 2 ^ (53 : Int) * 2 ^ e := by gcongr
    _ = 2 ^ (53 + e) := (zpow_add₀ two_ne_zero _ _).symm
    _ ≤ 2 ^ (52 + f) := zpow_le_zpow_right₀ one_le_two (by omega)
    _ = 2 ^ (52 : Int) * 2 ^ f := zpow_add₀ two_ne_zero _ _
    _ ≤ n * 2 ^ f := by gcongr

-- The exponents decide, and where they are the same, the mantissas do.
theorem scaled_le_iff {m n : Nat} {e f : Int}
    (left : m < 2 ^ 53 ∧ -1074 ≤ e ∧ (2 ^ 52 ≤ m ∨ e = -1074))
    (right : n < 2 ^ 53 ∧ -1074 ≤ f ∧ (2 ^ 52 ≤ n ∨ f = -1074)) :
    ((compare e f).then (compare m n)).isLE = true ↔ (m : ℝ) * 2 ^ e ≤ n * 2 ^ f := by
  rcases lt_trichotomy e f with below | rfl | above
  · have filled : 2 ^ 52 ≤ n := by omega
    rw [compare_lt_iff_lt.mpr below]
    exact iff_of_true rfl (scaled_lt below left.1 filled).le
  · have positive : (0 : ℝ) < 2 ^ e := by positivity
    rw [compare_eq_iff_eq.mpr rfl, mul_le_mul_iff_of_pos_right positive, Nat.cast_le]
    change (compare m n).isLE = true ↔ _
    exact Ordering.ne_gt_iff_isLE.symm.trans compare_le_iff_le
  · have filled : 2 ^ 52 ≤ m := by omega
    rw [compare_gt_iff_gt.mpr above]
    exact iff_of_false nofun (scaled_lt above right.1 filled).not_ge

theorem le_iff_valueOf {u v : UnpackedFloat} (left : Canonical u) (right : Canonical v)
    (finite : u.isFinite = true) (finite' : v.isFinite = true) :
    u.le v = true ↔ valueOf u ≤ valueOf v := by
  have positive {m : Nat} (above : 0 < m) (e : Int) : (0 : ℝ) < m * 2 ^ e := by positivity
  rcases u with _ | _ | _ | ⟨sign, m, e, hm⟩
  · cases finite
  · cases finite
  · rcases v with _ | _ | _ | ⟨_ | _, n, f, hn⟩
    · cases finite'
    · cases finite'
    · simp [UnpackedFloat.le, UnpackedFloat.compare, valueOf]
    · simpa [UnpackedFloat.le, UnpackedFloat.compare, valueOf, Sign.apply] using positive hn f
    · simpa [UnpackedFloat.le, UnpackedFloat.compare, valueOf, Sign.apply] using (positive hn f).le
  · have here := positive hm e
    rcases v with _ | _ | _ | ⟨sign', n, f, hn⟩
    · cases finite'
    · cases finite'
    · cases sign
      · simpa [UnpackedFloat.le, UnpackedFloat.compare, valueOf, Sign.apply] using here.le
      · simpa [UnpackedFloat.le, UnpackedFloat.compare, valueOf, Sign.apply] using here
    · have there := positive hn f
      cases sign <;> cases sign'
      -- Below zero the order turns round.
      · have turned : ((compare e f).then (compare m n)).swap =
            (compare f e).then (compare n m) := by
          rw [Ordering.swap_then, Int.compare_swap, Nat.compare_swap]
        simpa [UnpackedFloat.le, UnpackedFloat.compare, valueOf, Sign.apply, turned]
          using scaled_le_iff right left
      · have below := (neg_neg_of_pos here).trans there
        simpa [UnpackedFloat.le, UnpackedFloat.compare, valueOf, Sign.apply] using below.le
      · have above := (neg_neg_of_pos there).trans here
        simpa [UnpackedFloat.le, UnpackedFloat.compare, valueOf, Sign.apply] using above
      · exact scaled_le_iff left right

theorem extended_of_finite {u : UnpackedFloat} (finite : u.isFinite = true) :
    extended u = valueOf u := by
  cases u with
  | infinity => cases finite
  | _ => rfl

theorem le_iff_extended {u v : UnpackedFloat} (left : Canonical u) (right : Canonical v)
    (number : u ≠ .notANumber) (number' : v ≠ .notANumber) :
    u.le v = true ↔ extended u ≤ extended v := by
  by_cases finite : u.isFinite = true ∧ v.isFinite = true
  · rw [le_iff_valueOf left right finite.1 finite.2, extended_of_finite finite.1,
      extended_of_finite finite.2, EReal.coe_le_coe_iff]
  · rcases u with ⟨_ | _⟩ | _ | _ | _ <;> rcases v with ⟨_ | _⟩ | _ | _ | _ <;>
      first | contradiction | exact absurd ⟨rfl, rfl⟩ finite | skip
    all_goals simp [UnpackedFloat.le, UnpackedFloat.compare, extended]
    all_goals decide

theorem isNaN_iff {x : Float} : Scalar.isNaN x = true ↔ x.toModel.unpack = .notANumber := by
  change x.toModel.unpack.isNaN = true ↔ _
  generalize x.toModel.unpack = u
  cases u <;> simp [UnpackedFloat.isNaN]

theorem ne_notANumber {x : Float} (number : Scalar.isNaN x = false) :
    x.toModel.unpack ≠ .notANumber := by
  rwa [Ne, ← isNaN_iff, Bool.not_eq_true]

theorem le_iff {x y : Float} (number : Scalar.isNaN x = false) (number' : Scalar.isNaN y = false) :
    x ≤ y ↔ extended x.toModel.unpack ≤ extended y.toModel.unpack :=
  Iff.trans decide_eq_true_iff (le_iff_extended (canonical_unpack x) (canonical_unpack y)
    (ne_notANumber number) (ne_notANumber number'))

def HasValue (x : Float) (r : ℝ) : Prop :=
  ∃ value, Decimal.Value.ofFloat x = .finite value ∧
    (value.signedNumerator : ℝ) / value.denominator = r

theorem value_dyadic (negative : Bool) (m : Nat) (e : Int) :
    (Decimal.Dyadic.signedNumerator ⟨negative, m, e⟩ : ℝ) /
      Decimal.Dyadic.denominator ⟨negative, m, e⟩ = (if negative then -(m : ℝ) else m) * 2 ^ e := by
  have scaled : (2 : ℝ) ^ e.toNat / 2 ^ (-e).toNat = 2 ^ e := by
    rw [← zpow_natCast, ← zpow_natCast, ← zpow_sub₀ two_ne_zero]
    congr 1
    omega
  cases negative <;>
    simp [Decimal.Dyadic.signedNumerator, Decimal.Dyadic.numerator, Decimal.Dyadic.denominator,
      ← scaled, mul_div_assoc, neg_div]

theorem hasValue_iff {x : Float} {r : ℝ} :
    HasValue x r ↔ x.toModel.unpack.isFinite = true ∧ valueOf x.toModel.unpack = r := by
  rw [HasValue, ofFloat_eq_reading]
  generalize x.toModel.unpack = u
  rcases u with _ | _ | _ | ⟨sign, m, e, _⟩
  · simp [reading, UnpackedFloat.isFinite]
  · simp [reading, UnpackedFloat.isFinite]
  · simp only [reading, UnpackedFloat.isFinite, Decimal.Value.finite.injEq, exists_eq_left',
      value_dyadic, valueOf]
    simp
  · cases sign <;> simp [reading, UnpackedFloat.isFinite, value_dyadic, valueOf, Sign.apply]

theorem HasValue.unique {x : Float} {r s : ℝ} (value : HasValue x r) (value' : HasValue x s) :
    r = s :=
  (hasValue_iff.mp value).2.symm.trans (hasValue_iff.mp value').2

theorem HasValue.number {x : Float} {r : ℝ} (value : HasValue x r) : Scalar.isNaN x = false := by
  obtain ⟨finite, -⟩ := hasValue_iff.mp value
  rw [← Bool.not_eq_true, isNaN_iff]
  intro same
  rw [same] at finite
  cases finite

theorem HasValue.extended {x : Float} {r : ℝ} (value : HasValue x r) :
    extended x.toModel.unpack = r := by
  obtain ⟨finite, same⟩ := hasValue_iff.mp value
  rw [extended_of_finite finite, same]

theorem HasValue.le {x y : Float} {r s : ℝ} (value : HasValue x r) (value' : HasValue y s)
    (below : x ≤ y) : r ≤ s := by
  have order := (le_iff value.number value'.number).mp below
  rwa [value.extended, value'.extended, EReal.coe_le_coe_iff] at order

theorem exists_value_or_top {x y : Float} {s : ℝ} (number : Scalar.isNaN x = false)
    (value : HasValue y s) (below : y ≤ x) :
    (∃ r, HasValue x r) ∨ x.toModel.unpack = .infinity .positive := by
  have order := (le_iff value.number number).mp below
  rw [value.extended] at order
  have known := ne_notANumber number
  have finite (inside : x.toModel.unpack.isFinite = true) : ∃ r, HasValue x r :=
    ⟨_, hasValue_iff.mpr ⟨inside, rfl⟩⟩
  generalize x.toModel.unpack = u at order known finite
  rcases u with ⟨_ | _⟩ | _ | _ | _
  · exact absurd order (by simp [Double.extended])
  · exact .inr rfl
  · exact absurd rfl known
  · exact .inl (finite rfl)
  · exact .inl (finite rfl)

end Passwise.Double
