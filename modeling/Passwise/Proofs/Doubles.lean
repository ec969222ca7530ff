import Mathlib
import Passwise.Scalar.Double
import Passwise.Snapshot.Cells

set_option autoImplicit false

namespace Passwise.Double

open Float.Model Float.Model.UnpackedFloat

def Unsigned : UnpackedFloat → Prop
  | .notANumber => True
  | .zero sign => sign = .positive
  | .infinity sign => sign = .positive
  | .finite sign _ _ _ => sign = .positive

def NotBelow : UnpackedFloat → Prop
  | .zero _ => True
  | u => Unsigned u

theorem unpackSign_packComponents {spec : Format} {sign : Sign}
    {exponent : BitVec spec.exponentBits} {mantissa : BitVec spec.mantissaBitsWithoutImplicit} :
    unpackSign (packComponents spec sign exponent mantissa) = sign.toBitVec := by
  ext i hi
  obtain rfl : i = 0 := by omega
  simp [unpackSign, packComponents, BitVec.getLsbD_append, BitVec.getElem_append]

theorem unsigned_unpack_packComponents (exponent : BitVec 11) (mantissa : BitVec 52) :
    Unsigned (UnpackedFloat.unpack Format.binary64
      (packComponents Format.binary64 .positive exponent mantissa)) := by
  unfold UnpackedFloat.unpack
  rw [unpackSign_packComponents]
  dsimp only
  split_ifs <;> simp [Unsigned, Sign.ofBitVec, Sign.toBitVec]

theorem unsigned_unpack_pack {u : UnpackedFloat} (unsigned : Unsigned u) :
    Unsigned (Float.Model.pack u).unpack := by
  change Unsigned (UnpackedFloat.unpack Format.binary64 (UnpackedFloat.pack Format.binary64 u))
  cases u with
  | notANumber => exact unsigned_unpack_packComponents _ _
  | zero sign =>
    cases unsigned
    exact unsigned_unpack_packComponents _ _
  | infinity sign =>
    cases unsigned
    exact unsigned_unpack_packComponents _ _
  | finite sign m e positive =>
    cases unsigned
    unfold UnpackedFloat.pack
    dsimp only
    split_ifs
    · exact unsigned_unpack_packComponents _ _
    · exact unsigned_unpack_packComponents _ _
    · exact unsigned_unpack_packComponents _ _

theorem notBelow_of_unsigned {u : UnpackedFloat} (unsigned : Unsigned u) : NotBelow u := by
  cases u with
  | zero sign => trivial
  | _ => exact unsigned

theorem unsigned_of_notBelow {u : UnpackedFloat} (notBelow : NotBelow u)
    (nonzero : ∀ sign, u ≠ .zero sign) : Unsigned u := by
  cases u with
  | zero sign => exact absurd rfl (nonzero sign)
  | _ => exact notBelow

theorem notBelow_unpack_pack {u : UnpackedFloat} (notBelow : NotBelow u) :
    NotBelow (Float.Model.pack u).unpack := by
  cases u with
  | zero sign => cases sign <;> trivial
  | _ => exact notBelow_of_unsigned (unsigned_unpack_pack notBelow)

theorem not_lt_zero_iff (x : Float) : ¬ x < 0 ↔ NotBelow x.toModel.unpack := by
  have zero : (0 : Float).toModel.unpack = .zero .positive := by rfl
  have below : x < 0 ↔ x.toModel.unpack.lt (.zero .positive) = true := by
    rw [← zero]
    exact decide_eq_true_iff
  rw [below]
  generalize x.toModel.unpack = u
  rcases u with ⟨_ | _⟩ | _ | _ | ⟨_ | _, m, e, _⟩ <;>
    simp [NotBelow, Unsigned, UnpackedFloat.lt, UnpackedFloat.compare]

theorem ne_zero_of_beq {x : Float} (nonzero : (x == 0) = false) (sign : Sign) :
    x.toModel.unpack ≠ .zero sign := by
  intro same
  have equal : x.toModel.unpack.beq (.zero .positive) = false := nonzero
  rw [same] at equal
  cases equal

theorem unsigned_neg {u : UnpackedFloat} (below : ¬ NotBelow u) : Unsigned u.neg := by
  rcases u with ⟨_ | _⟩ | _ | _ | ⟨_ | _, m, e, _⟩
  all_goals first | rfl | exact absurd rfl below | exact absurd trivial below

theorem unsigned_abs_of_lt {x : Float} (below : x < 0) :
    Unsigned (Scalar.abs x).toModel.unpack := by
  have same : Scalar.abs x = -x := if_pos below
  rw [same]
  exact unsigned_unpack_pack (unsigned_neg fun notBelow => (not_lt_zero_iff x).mpr notBelow below)

theorem notBelow_abs (x : Float) : NotBelow (Scalar.abs x).toModel.unpack := by
  by_cases below : x < 0
  · exact notBelow_of_unsigned (unsigned_abs_of_lt below)
  · have same : Scalar.abs x = x := if_neg below
    rw [same]
    exact (not_lt_zero_iff x).mp below

theorem unsigned_abs {x : Float} (nonzero : (x == 0) = false) :
    Unsigned (Scalar.abs x).toModel.unpack := by
  by_cases below : x < 0
  · exact unsigned_abs_of_lt below
  · have same : Scalar.abs x = x := if_neg below
    rw [same]
    exact unsigned_of_notBelow ((not_lt_zero_iff x).mp below) (ne_zero_of_beq nonzero)

theorem unsigned_round (m : Nat) (e : Int) (accuracy : Accuracy) :
    Unsigned (roundWithAccuracy Format.binary64 .positive m e accuracy) := by
  unfold roundWithAccuracy
  dsimp only
  split_ifs <;> rfl

theorem notBelow_div {u v : UnpackedFloat} (left : NotBelow u) (right : Unsigned v) :
    NotBelow (UnpackedFloat.div Format.binary64 u v) := by
  rcases v with sign | _ | sign | ⟨sign, m, e, _⟩
  · cases right
    rcases u with sign | _ | sign | ⟨sign, m, e, _⟩ <;> trivial
  · cases u <;> trivial
  · cases right
    rcases u with sign | _ | sign | ⟨sign, m, e, _⟩
    · cases left
      rfl
    · trivial
    · trivial
    · cases left
      rfl
  · cases right
    rcases u with sign | _ | sign | ⟨sign, m, e, _⟩
    · cases left
      rfl
    · trivial
    · trivial
    · cases left
      exact notBelow_of_unsigned (unsigned_round _ _ _)

theorem not_ratio_lt_zero (x : Float) {y : Float} (nonzero : (y == 0) = false) :
    ¬ Scalar.abs x / Scalar.abs y < 0 := by
  rw [not_lt_zero_iff]
  exact notBelow_unpack_pack (notBelow_div (notBelow_abs x) (unsigned_abs nonzero))

theorem log2_mul_two_pow {m : Nat} (positive : 0 < m) (k : Nat) :
    (m * 2 ^ k).log2 = m.log2 + k := by
  induction k with
  | zero => simp
  | succ k ih =>
    rw [Nat.pow_succ', Nat.mul_left_comm, Nat.log2_two_mul (by positivity), ih, Nat.add_assoc]

theorem shiftRight_exact (m k : Nat) :
    (⟨m * 2 ^ k, false, false⟩ : ExtendedMantissa) >>> k = ⟨m, false, false⟩ := by
  induction k generalizing m with
  | zero => simp [HShiftRight.hShiftRight, Nat.repeat]
  | succ k ih =>
    have step : (⟨m * 2 ^ (k + 1), false, false⟩ : ExtendedMantissa) >>> (k + 1) =
        ((⟨m * 2 * 2 ^ k, false, false⟩ : ExtendedMantissa) >>> k).shiftRightOne := by
      rw [Nat.pow_succ', Nat.mul_assoc]
      rfl
    rw [step, ih]
    simp [ExtendedMantissa.shiftRightOne]

theorem shiftToTarget_normal {m : Nat} (positive : 0 < m) (normal : m.log2 = 52) (k : Nat) {e : Int}
    (least : -1074 ≤ e) :
    shiftToTargetExponent Format.binary64 (m * 2 ^ k) (e - k) .exact =
      (⟨m, false, false⟩, e) := by
  have log : (m * 2 ^ k).log2 = 52 + k := by rw [log2_mul_two_pow positive, normal]
  have target : Format.binary64.targetExponent (totalExponent (m * 2 ^ k) (e - k)) = e := by
    simp only [Format.targetExponent, totalExponent, Format.mantissaBits, Format.minExponent, log]
    norm_num
    omega
  have shift : (e - (e - (k : Int))).toNat = k := by omega
  have back : e - (k : Int) + (k : Int) = e := by omega
  rw [shiftToTargetExponent, target, shiftToExponent, shift, back]
  exact congrArg (·, e) (shiftRight_exact m k)

theorem round_normal {m : Nat} (positive : 0 < m) (normal : m.log2 = 52) (k : Nat) {e : Int}
    (least : -1074 ≤ e) :
    roundWithAccuracy Format.binary64 .positive (m * 2 ^ k) (e - k) .exact =
      .finite .positive m e positive := by
  have again := shiftToTarget_normal positive normal 0 least
  rw [Nat.pow_zero, Nat.mul_one, Int.natCast_zero, Int.sub_zero] at again
  unfold roundWithAccuracy
  rw [shiftToTarget_normal positive normal k least]
  dsimp only
  have rounded : (⟨m, false, false⟩ : ExtendedMantissa).roundedMantissa = m := rfl
  rw [rounded, again]
  simp [positive.ne']

def normalBits (m field : Nat) : BitVec 64 :=
  packComponents Format.binary64 .positive (BitVec.ofNat 11 field) (BitVec.ofNat 52 m)

theorem pack_normal {m : Nat} (positive : 0 < m) (normal : m.log2 = 52) {field : Nat}
    (small : field < 2047) :
    UnpackedFloat.pack Format.binary64 (.finite .positive m (field - 1075) positive) =
      normalBits m field := by
  have biased : ((field : Int) - 1075 + (Format.exponentBias Format.binary64 : Nat) +
      (Format.binary64.mantissaBitsWithoutImplicit : Nat)).toNat = field := by
    simp only [Format.exponentBias]
    norm_num
    omega
  unfold UnpackedFloat.pack
  dsimp only
  rw [biased, if_neg (by norm_num; omega), if_pos (by rw [normal]; rfl)]
  rfl

theorem toNat_append {v w : Nat} (high : BitVec v) (low : BitVec w) :
    (high ++ low).toNat = high.toNat * 2 ^ w + low.toNat := by
  rw [BitVec.toNat_append, ← Nat.shiftLeft_add_eq_or_of_lt low.isLt, Nat.shiftLeft_eq]

theorem toNat_leading {m : Nat} (positive : 0 < m) (normal : m.log2 = 52) :
    (1#1 ++ BitVec.ofNat 52 m).toNat = m := by
  have bounds := (Nat.log2_eq_iff positive.ne').mp normal
  rw [toNat_append, BitVec.toNat_ofNat, BitVec.toNat_ofNat]
  omega

theorem unpack_packComponents {exponent : BitVec 11} (mantissa : BitVec 52)
    (notAll : exponent ≠ -1#11) (notNone : exponent ≠ 0#11)
    (positive : 0 < (1#1 ++ mantissa).toNat) :
    UnpackedFloat.unpack Format.binary64
      (packComponents Format.binary64 .positive exponent mantissa) =
      .finite .positive (1#1 ++ mantissa).toNat ((exponent.toNat : Int) - 1075) positive := by
  unfold UnpackedFloat.unpack
  simp only [unpackSign_packComponents, unpackExponent_packComponents,
    unpackMantissa_packComponents]
  rw [if_neg notAll, if_neg notNone]
  rfl

theorem unpack_normal {m : Nat} (positive : 0 < m) (normal : m.log2 = 52) {field : Nat}
    (least : 0 < field) (small : field < 2047) :
    UnpackedFloat.unpack Format.binary64 (normalBits m field) =
      .finite .positive m (field - 1075) positive := by
  have exponent : (BitVec.ofNat 11 field).toNat = field := by
    rw [BitVec.toNat_ofNat, Nat.mod_eq_of_lt (by omega)]
  have other (k : BitVec 11) (apart : k.toNat ≠ field) : BitVec.ofNat 11 field ≠ k := by
    rintro rfl
    exact apart exponent
  have notAll := other (-1#11) (by
    change 2047 ≠ field
    omega)
  have notNone := other 0#11 (by simpa using least.ne)
  have whole := unpack_packComponents (BitVec.ofNat 52 m) notAll notNone
    (by rwa [toNat_leading positive normal])
  simp only [toNat_leading positive normal, exponent] at whole
  exact whole

theorem toNat_normalBits {m : Nat} (positive : 0 < m) (normal : m.log2 = 52) {field : Nat}
    (small : field < 2047) : (normalBits m field).toNat = field * 2 ^ 52 + (m - 2 ^ 52) := by
  have bounds := (Nat.log2_eq_iff positive.ne').mp normal
  have split : (normalBits m field).toNat =
      (Sign.positive.toBitVec ++ BitVec.ofNat 11 field ++ BitVec.ofNat 52 m).toNat := rfl
  rw [split, toNat_append, toNat_append, BitVec.toNat_ofNat, BitVec.toNat_ofNat]
  have sign : Sign.positive.toBitVec.toNat = 0 := rfl
  rw [sign]
  omega

def ofNormal (m field : Nat) (positive : 0 < m) : Float :=
  .ofModel (.pack (.finite .positive m (field - 1075) positive))

theorem valueOf_ofNormal {m : Nat} (positive : 0 < m) (normal : m.log2 = 52) (field : Nat)
    (least : 0 < field) (small : field < 2047) :
    Decimal.Value.ofFloat (ofNormal m field positive) = .finite ⟨false, m, field - 1075⟩ := by
  have bounds := (Nat.log2_eq_iff positive.ne').mp normal
  have bits : (ofNormal m field positive).toBits.toNat = field * 2 ^ 52 + (m - 2 ^ 52) := by
    rw [← toNat_normalBits positive normal small, ← pack_normal positive normal small]
    rfl
  have high : (field * 2 ^ 52 + (m - 2 ^ 52)) / Nat.pow 2 63 = 0 := by
    change _ / 9223372036854775808 = _
    omega
  have middle : (field * 2 ^ 52 + (m - 2 ^ 52)) / Nat.pow 2 52 % Nat.pow 2 11 = field := by
    change _ / 4503599627370496 % 2048 = _
    omega
  have low : (field * 2 ^ 52 + (m - 2 ^ 52)) % Nat.pow 2 52 = m - 2 ^ 52 := by
    change _ % 4503599627370496 = _
    omega
  have leading : Nat.pow 2 52 + (m - 2 ^ 52) = m := by
    change 4503599627370496 + _ = _
    omega
  unfold Decimal.Value.ofFloat
  simp only [bits, high, middle, low]
  rw [if_neg (by omega), if_neg (by omega), leading]
  rfl

theorem unpack_ofNormal {m : Nat} (positive : 0 < m) (normal : m.log2 = 52) (field : Nat)
    (least : 0 < field) (small : field < 2047) :
    (ofNormal m field positive).toModel.unpack = .finite .positive m (field - 1075) positive := by
  rw [← unpack_normal positive normal least small, ← pack_normal positive normal small]
  rfl

def filled (n : Nat) : Nat := n * 2 ^ (52 - n.log2)

theorem log2_filled {n : Nat} (positive : 0 < n) (small : n < 2 ^ 53) : (filled n).log2 = 52 := by
  have below : n.log2 < 53 := (Nat.log2_lt positive.ne').mpr small
  rw [filled, log2_mul_two_pow positive]
  omega

theorem filled_pos {n : Nat} (positive : 0 < n) : 0 < filled n := by
  rw [filled]
  positivity

theorem ofUInt64_eq {n : Nat} (positive : 0 < n) (small : n < 2 ^ 53) :
    UnpackedFloat.ofUInt64 Format.binary64 n.toUInt64 =
      .finite .positive (filled n) ((n.log2 + 1023 : Nat) - 1075) (filled_pos positive) := by
  have below : n.log2 < 53 := (Nat.log2_lt positive.ne').mpr small
  have word : n.toUInt64.toNat = n := by
    rw [Nat.toUInt64_eq, UInt64.toNat_ofNat']
    omega
  have sign : compare (n : Int) 0 = .gt := by
    rw [Int.compare_eq_gt]
    omega
  have target : Format.binary64.targetExponent (totalExponent n 0) = (n.log2 : Int) - 52 := by
    simp only [Format.targetExponent, totalExponent, Format.mantissaBits, Format.minExponent]
    norm_num
    omega
  have shift : (0 - ((n.log2 : Int) - 52)).toNat = 52 - n.log2 := by omega
  have left : (0 - ((52 - n.log2 : Nat) : Int)) = (n.log2 + 1023 : Nat) - 1075 := by omega
  have whole := round_normal (filled_pos positive) (log2_filled positive small) 0
    (e := (n.log2 + 1023 : Nat) - 1075) (by omega)
  rw [Nat.pow_zero, Nat.mul_one, Int.natCast_zero, Int.sub_zero] at whole
  rw [UnpackedFloat.ofUInt64, UnpackedFloat.ofNat, UnpackedFloat.ofInt, UnpackedFloat.normalize,
    word, sign]
  simp only [UnpackedFloat.round, target, decreaseExponent, shift, Nat.shiftLeft_eq,
    Int.toNat_natCast]
  rw [left]
  exact whole

theorem ofNormal_mul_one {m : Nat} (positive : 0 < m) (normal : m.log2 = 52) (field : Nat)
    (least : 0 < field) (small : field < 2047) :
    ofNormal m field positive * Float.ofBits 0x3FF0000000000000 = ofNormal m field positive := by
  have one : (Float.ofBits 0x3FF0000000000000).toModel.unpack =
      .finite .positive (2 ^ 52) (-52) (by decide) := by rfl
  have product := round_normal positive normal 52 (e := (field : Int) - 1075) (by omega)
  change Float.ofModel (.pack (UnpackedFloat.mul Format.binary64
    (ofNormal m field positive).toModel.unpack
    (Float.ofBits 0x3FF0000000000000).toModel.unpack)) = _
  rw [unpack_ofNormal positive normal field least small, one]
  exact congrArg (fun u => Float.ofModel (.pack u)) product

-- A whole number below `2 ^ 53` becomes a double by way of a word, multiplied by one.
theorem ofNat_eq_ofNormal {n : Nat} (positive : 0 < n) (small : n < 2 ^ 53) :
    Float.ofNat n = ofNormal (filled n) (n.log2 + 1023) (filled_pos positive) := by
  have below : n.log2 < 53 := (Nat.log2_lt positive.ne').mpr small
  have first : n.toUInt64.toFloat = ofNormal (filled n) (n.log2 + 1023) (filled_pos positive) := by
    change Float.ofModel (.pack (UnpackedFloat.ofUInt64 Format.binary64 n.toUInt64)) = _
    rw [ofUInt64_eq positive small]
    rfl
  have fast : Float.ofNat n = n.toUInt64.toFloat * Float.ofBits 0x3FF0000000000000 := by
    change Float.ofScientific n false 0 = _
    rw [Float.ofScientific, dif_pos ⟨small, by decide⟩]
    rfl
  rw [fast, first]
  exact ofNormal_mul_one (filled_pos positive) (log2_filled positive small) _ (by omega) (by omega)

theorem wholeCell_of_value {x : Float} {value : Decimal.Dyadic}
    (finite : x.toModel.unpack.isFinite = true) (same : Decimal.Value.ofFloat x = .finite value) :
    wholeCell x = .ok value.truncate := by
  have number : Scalar.isNaN x = false := by
    change x.toModel.unpack.isNaN = false
    generalize x.toModel.unpack = u at finite
    cases u with
    | notANumber => cases finite
    | _ => rfl
  have bounded : Scalar.isFinite x = true := finite
  have whole : Scalar.truncate x = value.truncate := by
    simp only [Scalar.truncate, same]
  rw [wholeCell, number, bounded, whole]
  rfl

end Passwise.Double
