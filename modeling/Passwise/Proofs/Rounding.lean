import Passwise.Proofs.Order
import Passwise.Table.Cell

set_option autoImplicit false

namespace Passwise.Double

open Float.Model Float.Model.UnpackedFloat

section Shifting

-- A mantissa with its two last bits, as one number.
def codeOf (em : ExtendedMantissa) : Nat :=
  4 * em.mantissa + (2 * em.roundBit.toNat + em.stickyBit.toNat)

theorem codeOf_shiftRightOne_le {em em' : ExtendedMantissa} (below : codeOf em ≤ codeOf em') :
    codeOf em.shiftRightOne ≤ codeOf em'.shiftRightOne := by
  obtain ⟨m, r, s⟩ := em
  obtain ⟨m', r', s'⟩ := em'
  have last (k : Nat) : (k % 2 != 0).toNat = k % 2 := by
    rcases Nat.mod_two_eq_zero_or_one k with even | odd <;> simp [*]
  simp only [codeOf, ExtendedMantissa.shiftRightOne, last] at below ⊢
  cases r <;> cases s <;> cases r' <;> cases s' <;> simp at below ⊢ <;> omega

theorem codeOf_shiftRight_le {em em' : ExtendedMantissa} (below : codeOf em ≤ codeOf em')
    (k : Nat) : codeOf (em >>> k) ≤ codeOf (em' >>> k) := by
  induction k with
  | zero => exact below
  | succ k ih => exact codeOf_shiftRightOne_le ih

theorem roundedMantissa_le_of_codeOf {em em' : ExtendedMantissa} (below : codeOf em ≤ codeOf em') :
    em.roundedMantissa ≤ em'.roundedMantissa := by
  obtain ⟨m, r, s⟩ := em
  obtain ⟨m', r', s'⟩ := em'
  simp only [codeOf] at below
  cases r <;> cases s <;> cases r' <;> cases s' <;>
    simp [ExtendedMantissa.roundedMantissa, ExtendedMantissa.accuracy,
      Accuracy.roundToNearestEven] at below ⊢ <;> omega

theorem roundedMantissa_mono {M N : Nat} (below : M ≤ N) (k : Nat) :
    ((⟨M, false, false⟩ : ExtendedMantissa) >>> k).roundedMantissa ≤
      ((⟨N, false, false⟩ : ExtendedMantissa) >>> k).roundedMantissa :=
  roundedMantissa_le_of_codeOf (codeOf_shiftRight_le (by simpa [codeOf] using below) k)

end Shifting

section Whole

theorem filled_mul {n : Nat} (small : n.log2 ≤ 52) :
    filled n * 2 ^ (n.log2 + 1) = n * 2 ^ 53 := by
  rw [filled, Nat.mul_assoc, ← Nat.pow_add]
  congr 2
  omega

theorem toModel_ofNat {n : Nat} (positive : 0 < n) :
    (Float.ofNat n).toModel = Float.Model.pack
      (roundWithAccuracy Format.binary64 .positive (n * 2 ^ 53) (-53) .exact) := by
  by_cases small : n < 2 ^ 53
  · have log : n.log2 ≤ 52 := Nat.lt_succ_iff.mp ((Nat.log2_lt positive.ne').mpr small)
    have rounded := round_normal (filled_pos positive) (log2_filled positive small) (n.log2 + 1)
      (e := (n.log2 : Int) - 52) (by omega)
    have exponent : (n.log2 : Int) - 52 - (n.log2 + 1 : Nat) = -53 := by omega
    rw [filled_mul log, exponent] at rounded
    have field : ((n.log2 + 1023 : Nat) : Int) - 1075 = n.log2 - 52 := by omega
    rw [rounded, ofNat_eq_ofNormal positive small, ofNormal]
    simp only [field]
  · have slow : Float.ofNat n = .ofModel (Float.Model.ofScientific n 0) := by
      change Float.ofScientific n false 0 = _
      rw [Float.ofScientific, dif_neg fun fits => small fits.1]
      rfl
    have scaled : UnpackedFloat.ofScientific Format.binary64 n 0 =
        roundWithAccuracy Format.binary64 .positive (n * 2 ^ 53) (-53) .exact := by
      rw [UnpackedFloat.ofScientific, dif_neg positive.ne', if_neg (by decide),
        if_neg (by norm_num), if_pos le_rfl]
      simp only [UnpackedFloat.mul, Nat.shiftLeft_eq, Int.toNat_zero, Nat.pow_zero, Nat.mul_one,
        Format.mantissaBits, Int.add_zero]
      rfl
    rw [slow, ← scaled]
    rfl

theorem value_mono {m n : Nat} {e f : Int} (small : n < 2 ^ 53) (filled : 2 ^ 52 ≤ m)
    (below : (m : ℝ) * 2 ^ e ≤ n * 2 ^ f) : e ≤ f := by
  by_contra above
  exact absurd (scaled_lt (not_le.mp above) small filled) (not_lt.mpr below)

theorem exists_rounded {n : Nat} (positive : 0 < n) :
    ∃ m e hm, (Float.ofNat n).toModel.unpack =
        (Float.Model.pack (.finite .positive m e hm)).unpack ∧ m.log2 = 52 ∧ -1074 ≤ e ∧
      (m : ℝ) * 2 ^ e = (((⟨n * 2 ^ 53, false, false⟩ : ExtendedMantissa) >>>
        (n.log2 + 1)).roundedMantissa : ℝ) * 2 ^ ((n.log2 : Int) - 52) := by
  have log : (n * 2 ^ 53).log2 = 52 + (n.log2 + 1) := by
    rw [log2_mul_two_pow positive]
    omega
  obtain ⟨m, e, hm, rounded, normal, near⟩ := round_rounded (E := -53) log (by omega)
  have exponent : -53 + ((n.log2 + 1 : Nat) : Int) = n.log2 - 52 := by omega
  rw [exponent] at near
  refine ⟨m, e, hm, ?_, normal, by omega, ?_⟩
  · rw [toModel_ofNat positive, rounded]
  · rcases near with ⟨rfl, rfl⟩ | ⟨rfl, double⟩
    · rfl
    · rw [← double, zpow_add_one₀ two_ne_zero]
      push_cast
      ring

theorem two_pow_mul (a : Nat) (b : Int) : ((2 ^ a : ℕ) : ℝ) * 2 ^ b = 2 ^ ((a : Int) + b) := by
  rw [Nat.cast_pow, Nat.cast_ofNat, ← zpow_natCast, ← zpow_add₀ two_ne_zero]

theorem extended_ofNat_nonneg (n : Nat) : 0 ≤ extended (Float.ofNat n).toModel.unpack := by
  rcases Nat.eq_zero_or_pos n with rfl | positive
  · exact le_rfl
  · rw [toModel_ofNat positive]
    exact extended_nonneg (notBelow_unpack_pack (notBelow_of_unsigned (unsigned_round _ _ _)))

theorem roundedMantissa_ofNat_mono {k n : Nat} (positive : 0 < k) (below : k ≤ n) :
    (((⟨k * 2 ^ 53, false, false⟩ : ExtendedMantissa) >>> (k.log2 + 1)).roundedMantissa : ℝ) *
        2 ^ ((k.log2 : Int) - 52) ≤
      (((⟨n * 2 ^ 53, false, false⟩ : ExtendedMantissa) >>> (n.log2 + 1)).roundedMantissa : ℝ) *
        2 ^ ((n.log2 : Int) - 52) := by
  have positive' := positive.trans_le below
  have logs : k.log2 ≤ n.log2 :=
    (Nat.le_log2 positive'.ne').mpr ((Nat.log2_self_le positive.ne').trans below)
  rcases logs.eq_or_lt with same | apart
  · rw [same]
    have mono := roundedMantissa_mono (Nat.mul_le_mul_right (2 ^ 53) below) (n.log2 + 1)
    gcongr
  -- Between the two there is a power of two, which is a double.
  · have upper := roundedMantissa_le (M := k * 2 ^ 53) (n := 2 ^ 53) (k := k.log2 + 1) <| by
      rw [Nat.mul_comm]
      exact Nat.mul_le_mul_left _ Nat.lt_log2_self.le
    have lower := le_roundedMantissa (M := n * 2 ^ 53) (n := 2 ^ 52) (k := n.log2 + 1) <| by
      rw [← Nat.pow_add, show 52 + (n.log2 + 1) = n.log2 + 53 by omega, Nat.pow_add]
      exact Nat.mul_le_mul_right _ (Nat.log2_self_le positive'.ne')
    calc (((⟨k * 2 ^ 53, false, false⟩ : ExtendedMantissa) >>> (k.log2 + 1)).roundedMantissa : ℝ) *
          2 ^ ((k.log2 : Int) - 52)
        ≤ (2 ^ 53 : ℕ) * 2 ^ ((k.log2 : Int) - 52) := by gcongr
      _ = 2 ^ ((k.log2 : Int) + 1) := (two_pow_mul 53 _).trans (congrArg _ (by omega))
      _ ≤ 2 ^ (n.log2 : Int) := zpow_le_zpow_right₀ one_le_two (by omega)
      _ = (2 ^ 52 : ℕ) * 2 ^ ((n.log2 : Int) - 52) :=
        ((two_pow_mul 52 _).trans (congrArg _ (by omega))).symm
      _ ≤ _ := by gcongr

theorem extended_ofNat_mono {k n : Nat} (below : k ≤ n) :
    extended (Float.ofNat k).toModel.unpack ≤ extended (Float.ofNat n).toModel.unpack := by
  rcases Nat.eq_zero_or_pos k with rfl | positive
  · exact extended_ofNat_nonneg n
  obtain ⟨m, e, hm, parts, normal, least, value⟩ := exists_rounded positive
  obtain ⟨m', e', hm', parts', normal', least', value'⟩ := exists_rounded (positive.trans_le below)
  have order : (m : ℝ) * 2 ^ e ≤ m' * 2 ^ e' := by
    rw [value, value']
    exact roundedMantissa_ofNat_mono positive below
  have bounds := (Nat.log2_eq_iff hm.ne').mp normal
  have bounds' := (Nat.log2_eq_iff hm'.ne').mp normal'
  have exponents := value_mono bounds'.2 bounds.1 order
  rw [parts, parts', unpack_pack_normal hm normal least, unpack_pack_normal hm' normal' least']
  split_ifs with inside inside'
  · rw [extended_positive, extended_positive]
    exact EReal.coe_le_coe_iff.mpr order
  · exact le_top
  · omega
  · exact le_top

theorem extended_neg (u : UnpackedFloat) : extended u.neg = -extended u := by
  rcases u with ⟨_ | _⟩ | _ | _ | ⟨_ | _, m, e, positive⟩
  · exact EReal.neg_bot.symm
  · exact EReal.neg_top.symm
  · exact (neg_zero (G := EReal)).symm
  · exact (neg_zero (G := EReal)).symm
  · change extended (.finite .positive m e positive) = -extended (.finite .negative m e positive)
    rw [extended_positive, extended_negative, ← EReal.coe_neg, neg_neg]
  · change extended (.finite .negative m e positive) = -extended (.finite .positive m e positive)
    rw [extended_positive, extended_negative, EReal.coe_neg]

theorem unpack_ofNat_cases {n : Nat} (positive : 0 < n) :
    (Float.ofNat n).toModel.unpack = .infinity .positive ∨
      ∃ m e hm, (Float.ofNat n).toModel.unpack = .finite .positive m e hm ∧ m.log2 = 52 ∧
        -1074 ≤ e ∧ e < 972 := by
  obtain ⟨m, e, hm, parts, normal, least, -⟩ := exists_rounded positive
  rw [parts, unpack_pack_normal hm normal least]
  split_ifs with inside
  · exact .inr ⟨m, e, hm, rfl, normal, least, inside⟩
  · exact .inl rfl

theorem unpack_ofInt_negSucc (n : Nat) :
    (Float.ofInt (.negSucc n)).toModel.unpack = (Float.ofNat (n + 1)).toModel.unpack.neg := by
  change (Float.Model.pack (Float.ofNat (n + 1)).toModel.unpack.neg).unpack = _
  rw [unpack_pack_neg]
  rcases unpack_ofNat_cases n.succ_pos with top | ⟨m, e, hm, parts, normal, least, inside⟩
  · rw [top]
    rfl
  · rw [parts, unpack_pack_normal hm normal least, if_pos inside]

theorem extended_ofInt_mono {m n : Int} (below : m ≤ n) :
    extended (Float.ofInt m).toModel.unpack ≤ extended (Float.ofInt n).toModel.unpack := by
  cases m with
  | ofNat m =>
    cases n with
    | ofNat n => exact extended_ofNat_mono (Int.ofNat_le.mp below)
    | negSucc n => exact absurd ((Int.natCast_nonneg m).trans below) (Int.negSucc_not_nonneg n).mp
  | negSucc m =>
    rw [unpack_ofInt_negSucc, extended_neg]
    cases n with
    | ofNat n =>
      have left := EReal.neg_le_neg_iff.mpr (extended_ofNat_nonneg (m + 1))
      rw [neg_zero] at left
      exact left.trans (extended_ofNat_nonneg n)
    | negSucc n =>
      rw [unpack_ofInt_negSucc, extended_neg]
      exact EReal.neg_le_neg_iff.mpr (extended_ofNat_mono (by omega))

theorem number_ofInt (n : Int) : Scalar.isNaN (Float.ofInt n) = false := by
  have natural (n : Nat) : (Float.ofNat n).toModel.unpack ≠ .notANumber := by
    rcases Nat.eq_zero_or_pos n with rfl | positive
    · exact nofun
    · rcases unpack_ofNat_cases positive with top | ⟨m, e, hm, parts, -⟩
      · rw [top]
        exact nofun
      · rw [parts]
        exact nofun
  rw [← Bool.not_eq_true, isNaN_iff]
  cases n with
  | ofNat n => exact natural n
  | negSucc n =>
    rw [unpack_ofInt_negSucc]
    have number := natural (n + 1)
    generalize (Float.ofNat (n + 1)).toModel.unpack = u at number
    cases u with
    | notANumber => exact absurd rfl number
    | _ => exact nofun

theorem ofInt_mono {m n : Int} (below : m ≤ n) : Float.ofInt m ≤ Float.ofInt n :=
  (le_iff (number_ofInt m) (number_ofInt n)).mpr (extended_ofInt_mono below)

theorem isInf_iff {x : Float} : x.isInf = true ↔
    extended x.toModel.unpack = ⊤ ∨ extended x.toModel.unpack = ⊥ := by
  change x.toModel.unpack.isInf = true ↔ _
  rcases x.toModel.unpack with ⟨_ | _⟩ | _ | _ | _ <;> simp [UnpackedFloat.isInf, extended]

theorem isInf_ofInt {l m n : Int} (lower : l ≤ m) (upper : m ≤ n)
    (fits : (Float.ofInt l).isInf = false) (fits' : (Float.ofInt n).isInf = false) :
    (Float.ofInt m).isInf = false := by
  rw [← Bool.not_eq_true, isInf_iff, not_or] at fits fits' ⊢
  refine ⟨fun top => fits'.1 ?_, fun bottom => fits.2 ?_⟩
  · exact top_le_iff.mp (top ▸ extended_ofInt_mono upper)
  · exact le_bot_iff.mp (bottom ▸ extended_ofInt_mono lower)

end Whole

section Sums

theorem notBelow_iff {x : Float} : 0 ≤ x ↔
    NotBelow x.toModel.unpack ∧ Scalar.isNaN x = false := by
  constructor
  · intro above
    exact ⟨(not_lt_zero_iff x).mp fun below => not_ge_of_lt below above, (numbers_of_le above).2⟩
  · rintro ⟨notBelow, number⟩
    exact le_of_not_lt number rfl ((not_lt_zero_iff x).mpr notBelow)

theorem unpack_packComponents_ne_notANumber {sign : Sign} {exponent : BitVec 11}
    {mantissa : BitVec 52} (notAll : exponent ≠ -1#11 ∨ mantissa = 0#52) :
    UnpackedFloat.unpack Format.binary64
      (packComponents Format.binary64 sign exponent mantissa) ≠ .notANumber := by
  unfold UnpackedFloat.unpack
  simp only [unpackSign_packComponents, unpackExponent_packComponents,
    unpackMantissa_packComponents]
  split_ifs with all none
  · exact nofun
  · exact fun _ => notAll.elim (· all) none
  · exact nofun
  · exact nofun
  · exact nofun

theorem unpack_pack_ne_notANumber {u : UnpackedFloat} (number : u ≠ .notANumber) :
    (Float.Model.pack u).unpack ≠ .notANumber := by
  change UnpackedFloat.unpack Format.binary64 (UnpackedFloat.pack Format.binary64 u) ≠ _
  cases u with
  | notANumber => exact absurd rfl number
  | infinity sign => exact unpack_packComponents_ne_notANumber (.inr rfl)
  | zero sign => exact unpack_packComponents_ne_notANumber (.inr rfl)
  | finite sign m e positive =>
    unfold UnpackedFloat.pack
    dsimp only
    split_ifs with large full
    · exact unpack_packComponents_ne_notANumber (.inr rfl)
    · refine unpack_packComponents_ne_notANumber (.inl fun all => ?_)
      have digits := congrArg BitVec.toNat all
      rw [BitVec.toNat_ofNat, Nat.mod_eq_of_lt (by
        change ¬ 2 ^ 11 ≤ _ at large
        omega)] at digits
      change _ = 2047 at digits
      change ¬ 2 ^ 11 ≤ _ at large
      omega
    · exact unpack_packComponents_ne_notANumber (.inl (by decide))

theorem normalize_ne_notANumber (D E : Int) :
    UnpackedFloat.normalize Format.binary64 D E .positive ≠ .notANumber := by
  have rounded (sign : Sign) (m : Nat) (e : Int) :
      UnpackedFloat.round Format.binary64 sign m e ≠ .notANumber := by
    unfold UnpackedFloat.round roundWithAccuracy
    dsimp only
    split_ifs <;> exact nofun
  unfold UnpackedFloat.normalize
  split
  · exact rounded _ _ _
  · exact nofun
  · exact rounded _ _ _

theorem extended_le_pack {m : Nat} {e : Int} (positive : 0 < m)
    (canonical : Canonical (.finite .positive m e positive)) :
    extended (.finite .positive m e positive) ≤
      extended (Float.Model.pack (.finite .positive m e positive)).unpack := by
  obtain ⟨upper, least, filled⟩ := canonical
  rcases lt_or_ge m (2 ^ 52) with small | large
  · obtain rfl := filled.resolve_left (not_le.mpr small)
    rw [unpack_pack_small positive ((Nat.log2_lt positive.ne').mpr small)]
  · rw [unpack_pack_normal positive ((Nat.log2_eq_iff positive.ne').mpr ⟨large, upper⟩) least]
    split_ifs
    · exact le_rfl
    · exact le_top

theorem add_of_notBelow {u v : UnpackedFloat} (left : NotBelow u) (right : NotBelow v)
    (canonical : Canonical u) (canonical' : Canonical v) (number : u ≠ .notANumber)
    (number' : v ≠ .notANumber) :
    extended u ≤ extended (Float.Model.pack (UnpackedFloat.add Format.binary64 u v)).unpack ∧
      UnpackedFloat.add Format.binary64 u v ≠ .notANumber := by
  have top (w : UnpackedFloat) :
      extended w ≤ extended (Float.Model.pack (.infinity .positive)).unpack := by
    rw [unpack_pack_top]
    exact le_top
  rcases u with ⟨_ | _⟩ | _ | sign | ⟨_ | _, n, f, hn⟩
  · cases left
  · rcases v with ⟨_ | _⟩ | _ | _ | _
    · cases right
    · exact ⟨top _, nofun⟩
    · exact absurd rfl number'
    · exact ⟨top _, nofun⟩
    · exact ⟨top _, nofun⟩
  · exact absurd rfl number
  · have zero : extended (.zero sign) = 0 := rfl
    rw [zero]
    rcases v with ⟨_ | _⟩ | _ | sign' | ⟨_ | _, q, g, hq⟩
    · cases right
    · exact ⟨extended_nonneg (notBelow_unpack_pack right), nofun⟩
    · exact absurd rfl number'
    · cases sign <;> cases sign' <;>
        exact ⟨extended_nonneg (notBelow_unpack_pack trivial), nofun⟩
    · cases right
    · exact ⟨extended_nonneg (notBelow_unpack_pack right), nofun⟩
  · cases left
  · rcases v with ⟨_ | _⟩ | _ | sign' | ⟨_ | _, q, g, hq⟩
    · cases right
    · exact ⟨top _, nofun⟩
    · exact absurd rfl number'
    · exact ⟨extended_le_pack hn canonical, nofun⟩
    · cases right
    · obtain ⟨D, sum, -⟩ := add_finite (s := .positive) (t := .positive) (e := f) (f := g) hn hq
      exact ⟨le_extended_add hn hq canonical.1 canonical.2.1 canonical'.2.1,
        sum ▸ normalize_ne_notANumber _ _⟩

theorem le_add {x p : Float} (above : 0 ≤ x) (above' : 0 ≤ p) : x ≤ x + p := by
  obtain ⟨left, number⟩ := notBelow_iff.mp above
  obtain ⟨right, number'⟩ := notBelow_iff.mp above'
  obtain ⟨order, known⟩ := add_of_notBelow left right (canonical_unpack x) (canonical_unpack p)
    (ne_notANumber number) (ne_notANumber number')
  refine (le_iff number ?_).mpr order
  rw [← Bool.not_eq_true, isNaN_iff]
  exact unpack_pack_ne_notANumber known

end Sums

end Passwise.Double
