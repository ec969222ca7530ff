import Passwise.Proofs.Differences

set_option autoImplicit false

namespace Passwise.Double

open Float.Model Float.Model.UnpackedFloat

theorem roundedMantissa_le {M n k : Nat} (below : M ≤ n * 2 ^ k) :
    ((⟨M, false, false⟩ : ExtendedMantissa) >>> k).roundedMantissa ≤ n := by
  rcases below.eq_or_lt with rfl | below
  · rw [shiftRight_exact]
    exact le_rfl
  · have floor : M / 2 ^ k < n := (Nat.div_lt_iff_lt_mul (by positivity)).mpr below
    have above := (roundedMantissa_bounds ((⟨M, false, false⟩ : ExtendedMantissa) >>> k)).2
    rw [mantissa_shiftRight] at above
    exact above.trans floor

theorem le_roundedMantissa {M n k : Nat} (above : n * 2 ^ k ≤ M) :
    n ≤ ((⟨M, false, false⟩ : ExtendedMantissa) >>> k).roundedMantissa := by
  have below := (roundedMantissa_bounds ((⟨M, false, false⟩ : ExtendedMantissa) >>> k)).1
  rw [mantissa_shiftRight] at below
  exact ((Nat.le_div_iff_mul_le (by positivity)).mpr above).trans below

theorem round_passes_none {M : Nat} {E : Int} (nonzero : M ≠ 0) (least : -1022 ≤ M.log2 + E) :
    ∃ m e positive, UnpackedFloat.round Format.binary64 .positive M E =
      .finite .positive m e positive ∧ m.log2 = 52 ∧ -1074 ≤ e ∧
      ∀ (n : Nat) (f : Int), n < 2 ^ 53 →
        ((n : ℝ) * 2 ^ f ≤ M * 2 ^ E → (n : ℝ) * 2 ^ f ≤ m * 2 ^ e) ∧
        ((M : ℝ) * 2 ^ E ≤ n * 2 ^ f → (m : ℝ) * 2 ^ e ≤ n * 2 ^ f) := by
  obtain ⟨j, k, same, log, shifted⟩ := round_shifted nonzero least
  obtain ⟨m, e, positive, rounded, normal, near⟩ :=
    round_rounded (E := E - (j : Int)) log (by omega)
  have digits (n : Nat) : (n : ℝ) * 2 ^ (E - j + k) = (n * 2 ^ k : ℕ) * 2 ^ (E - j) := by
    rw [scaled_shift n k, add_sub_cancel_right]
  have lower : 2 ^ 52 * 2 ^ k ≤ M * 2 ^ j := by
    rw [← Nat.pow_add]
    exact ((Nat.log2_eq_iff (by positivity)).mp log).1
  -- Both the number and what it is rounded to are counted in units of the last digit.
  rw [scaled_shift M j]
  generalize M * 2 ^ j = N at *
  generalize E - (j : Int) = F at *
  have value : (m : ℝ) * 2 ^ e =
      (((⟨N, false, false⟩ : ExtendedMantissa) >>> k).roundedMantissa : ℝ) * 2 ^ (F + k) := by
    rcases near with ⟨rfl, rfl⟩ | ⟨rfl, double⟩
    · rfl
    · rw [← double, zpow_add_one₀ two_ne_zero]
      push_cast
      ring
  refine ⟨m, e, positive, same.trans rounded, normal, by omega, fun n f small => ?_⟩
  rw [value]
  have within {f : Int} (order : F + k ≤ f) :
      (n : ℝ) * 2 ^ f = (n * 2 ^ (f - (F + k)).toNat : ℕ) * 2 ^ (F + k) := by
    rw [scaled_shift n (f - (F + k)).toNat]
    congr 2
    omega
  constructor
  · intro below
    rcases lt_or_ge f (F + k) with order | order
    · exact (scaled_lt order small (le_roundedMantissa lower)).le
    · rw [within order, digits] at below
      rw [within order]
      have below := le_of_mul_le_mul_right below (by positivity)
      have fits := le_roundedMantissa (by exact_mod_cast below)
      gcongr
  · intro above
    have order : F + k ≤ f := by
      by_contra short
      have order := scaled_lt (not_le.mp short) small le_rfl
      rw [digits] at order
      have filled : ((2 ^ 52 * 2 ^ k : ℕ) : ℝ) * 2 ^ F ≤ N * 2 ^ F := by gcongr
      linarith
    rw [within order, digits] at above
    rw [within order]
    have above := le_of_mul_le_mul_right above (by positivity)
    have fits := roundedMantissa_le (by exact_mod_cast above)
    gcongr

theorem exponent_unpack_le {x : Float} {sign : Sign} {m : Nat} {e : Int} {positive : 0 < m}
    (known : x.toModel.unpack = .finite sign m e positive) : e ≤ 971 := by
  change UnpackedFloat.unpack Format.binary64 x.toBits.toBitVec = _ at known
  generalize x.toBits.toBitVec = b at known
  unfold UnpackedFloat.unpack at known
  have field : (@unpackExponent Format.binary64 b).toNat < 2 ^ 11 := BitVec.isLt _
  dsimp only at known
  split_ifs at known with infinite empty small zero
  · cases known
    rw [small]
    decide
  · have notAll : (@unpackExponent Format.binary64 b).toNat ≠ 2047 := fun all =>
      infinite (BitVec.toNat_inj.mp all)
    cases known
    change _ - ((1023 : Int) + 52) ≤ 971
    omega

theorem unpack_packComponents_neg (sign : Sign) (exponent : BitVec 11) (mantissa : BitVec 52) :
    UnpackedFloat.unpack Format.binary64
        (packComponents Format.binary64 (-sign) exponent mantissa) =
      (UnpackedFloat.unpack Format.binary64
        (packComponents Format.binary64 sign exponent mantissa)).neg := by
  unfold UnpackedFloat.unpack
  simp only [unpackSign_packComponents, unpackExponent_packComponents,
    unpackMantissa_packComponents]
  cases sign <;> split_ifs <;> rfl

theorem unpack_pack_neg (u : UnpackedFloat) :
    (Float.Model.pack u.neg).unpack = (Float.Model.pack u).unpack.neg := by
  change UnpackedFloat.unpack Format.binary64 (UnpackedFloat.pack Format.binary64 u.neg) =
    (UnpackedFloat.unpack Format.binary64 (UnpackedFloat.pack Format.binary64 u)).neg
  cases u with
  | notANumber => rfl
  | infinity sign => exact unpack_packComponents_neg sign _ _
  | zero sign => exact unpack_packComponents_neg sign _ _
  | finite sign m e positive =>
    unfold UnpackedFloat.neg UnpackedFloat.pack
    dsimp only
    split_ifs
    · exact unpack_packComponents_neg sign _ _
    · exact unpack_packComponents_neg sign _ _
    · exact unpack_packComponents_neg sign _ _

theorem round_negative (M : Nat) (E : Int) :
    UnpackedFloat.round Format.binary64 .negative M E =
      (UnpackedFloat.round Format.binary64 .positive M E).neg := by
  unfold UnpackedFloat.round roundWithAccuracy
  dsimp only
  split_ifs <;> rfl

theorem add_finite {s t : Sign} {m n : Nat} {e f : Int} (hm : 0 < m) (hn : 0 < n) :
    ∃ D : Int, UnpackedFloat.add Format.binary64 (.finite s m e hm) (.finite t n f hn) =
        UnpackedFloat.normalize Format.binary64 D (min e f) .positive ∧
      (D : ℝ) * 2 ^ min e f = valueOf (.finite s m e hm) + valueOf (.finite t n f hn) := by
  refine ⟨_, rfl, ?_⟩
  simp only [apply_shiftLeft]
  push_cast
  rw [add_mul, scaled_down _ (min_le_left e f), scaled_down _ (min_le_right e f)]
  rfl

theorem valueOf_positive {n : Nat} {f : Int} (hn : 0 < n) :
    valueOf (.finite .positive n f hn) = n * 2 ^ f := by
  simp [valueOf, Sign.apply]

theorem valueOf_negative {n : Nat} {f : Int} (hn : 0 < n) :
    valueOf (.finite .negative n f hn) = -(n * 2 ^ f) := by
  simp [valueOf, Sign.apply]

theorem extended_positive {n : Nat} {f : Int} (hn : 0 < n) :
    extended (.finite .positive n f hn) = ((n * 2 ^ f : ℝ) : EReal) :=
  congrArg Real.toEReal (valueOf_positive hn)

theorem extended_negative {n : Nat} {f : Int} (hn : 0 < n) :
    extended (.finite .negative n f hn) = ((-(n * 2 ^ f) : ℝ) : EReal) :=
  congrArg Real.toEReal (valueOf_negative hn)

theorem extended_nonneg {u : UnpackedFloat} (notBelow : NotBelow u) : 0 ≤ extended u := by
  rcases u with ⟨_ | _⟩ | _ | _ | ⟨_ | _, m, e, positive⟩
  · cases notBelow
  · exact le_top
  · exact le_rfl
  · exact le_rfl
  · cases notBelow
  · rw [extended_positive]
    exact EReal.coe_nonneg.mpr (by positivity)

theorem round_small {M : Nat} {E : Int} (nonzero : M ≠ 0) (least : -1074 ≤ E)
    (small : M.log2 + E < -1022) :
    ∃ m hm, UnpackedFloat.round Format.binary64 .positive M E = .finite .positive m (-1074) hm ∧
      m.log2 < 52 ∧ (m : ℝ) * 2 ^ (-1074 : Int) = M * 2 ^ E := by
  have target {M : Nat} {E : Int} (small : M.log2 + E < -1022) :
      Format.binary64.targetExponent (totalExponent M E) = -1074 := by
    simp only [Format.targetExponent, totalExponent, Format.mantissaBits, Format.minExponent]
    norm_num
    omega
  let j := (E + 1074).toNat
  have exponent : E - (j : Int) = -1074 := by omega
  have positive : 0 < M * 2 ^ j := by positivity
  have log : (M * 2 ^ j).log2 + (-1074 : Int) < -1022 := by
    rw [log2_mul_two_pow (Nat.pos_of_ne_zero nonzero)]
    omega
  have still : shiftToTargetExponent Format.binary64 (M * 2 ^ j) (-1074) .exact =
      (⟨M * 2 ^ j, false, false⟩, -1074) := by
    rw [shiftToTargetExponent, target log]
    rfl
  refine ⟨M * 2 ^ j, positive, ?_, by omega, ?_⟩
  · rw [UnpackedFloat.round, target small, decreaseExponent, Nat.shiftLeft_eq]
    change roundWithAccuracy Format.binary64 .positive (M * 2 ^ j) (E - j) .exact = _
    rw [exponent]
    unfold roundWithAccuracy
    rw [still]
    have rounded : (⟨M * 2 ^ j, false, false⟩ : ExtendedMantissa).roundedMantissa = M * 2 ^ j := rfl
    dsimp only
    rw [rounded, still]
    exact dif_neg positive.ne'
  · rw [← exponent, ← scaled_shift]

theorem unpack_pack_small {m : Nat} (positive : 0 < m) (small : m.log2 < 52) :
    (Float.Model.pack (.finite .positive m (-1074) positive)).unpack =
      .finite .positive m (-1074) positive := by
  have below : m < 2 ^ 52 := (Nat.log2_lt positive.ne').mp small
  have mantissa : BitVec.ofNat 52 m ≠ 0#52 := by
    intro none
    have digits := congrArg BitVec.toNat none
    rw [BitVec.toNat_ofNat, Nat.mod_eq_of_lt below] at digits
    exact positive.ne' digits
  change UnpackedFloat.unpack Format.binary64 (UnpackedFloat.pack Format.binary64 _) = _
  unfold UnpackedFloat.pack
  dsimp only
  rw [if_neg (by decide), if_neg (by change ¬ m.log2 + 1 = 53; omega)]
  unfold UnpackedFloat.unpack
  simp only [unpackSign_packComponents, unpackExponent_packComponents,
    unpackMantissa_packComponents]
  have digits : (BitVec.ofNat 52 m).toNat = m := by
    rw [BitVec.toNat_ofNat, Nat.mod_eq_of_lt below]
  rw [if_neg (by decide), if_pos trivial, dif_neg mantissa]
  simp only [digits]
  rfl

theorem le_extended_round {n M : Nat} {f E : Int} (fits : n < 2 ^ 53) (nonzero : M ≠ 0)
    (least : -1074 ≤ E) (below : (n : ℝ) * 2 ^ f ≤ M * 2 ^ E) :
    ((n * 2 ^ f : ℝ) : EReal) ≤
      extended (Float.Model.pack (UnpackedFloat.round Format.binary64 .positive M E)).unpack := by
  rcases lt_or_ge (M.log2 + E) (-1022) with small | large
  · obtain ⟨m, hm, rounded, log, value⟩ := round_small nonzero least small
    rw [rounded, unpack_pack_small hm log, extended_positive, value]
    exact EReal.coe_le_coe_iff.mpr below
  · obtain ⟨m, e, hm, rounded, normal, least, sides⟩ := round_passes_none nonzero large
    rw [rounded, unpack_pack_normal hm normal least]
    split_ifs
    · rw [extended_positive]
      exact EReal.coe_le_coe_iff.mpr ((sides n f fits).1 below)
    · exact le_top

theorem le_extended_add {n q : Nat} {f g : Int} (hn : 0 < n) (hq : 0 < q) (fits : n < 2 ^ 53)
    (least : -1074 ≤ f) (least' : -1074 ≤ g) :
    extended (.finite .positive n f hn) ≤ extended (Float.Model.pack
      (UnpackedFloat.add Format.binary64 (.finite .positive n f hn)
        (.finite .positive q g hq))).unpack := by
  obtain ⟨D, sum, value⟩ := add_finite (s := .positive) (t := .positive) (e := f) (f := g) hn hq
  rw [valueOf_positive, valueOf_positive] at value
  have own : (0 : ℝ) < n * 2 ^ f := by positivity
  have added : (0 : ℝ) < q * 2 ^ g := by positivity
  have positive : 0 < D := by
    by_contra below
    have below : (D : ℝ) * 2 ^ min f g ≤ 0 :=
      mul_nonpos_of_nonpos_of_nonneg (by exact_mod_cast not_lt.mp below) (by positivity)
    linarith
  obtain ⟨M, rfl⟩ := Int.eq_ofNat_of_zero_le positive.le
  rw [Int.cast_natCast] at value
  have sign : compare (M : Int) 0 = .gt := compare_gt_iff_gt.mpr positive
  rw [sum, UnpackedFloat.normalize, sign, extended_positive]
  refine le_extended_round fits (by omega) (le_min least least') ?_
  rw [Int.toNat_natCast]
  linarith

theorem le_extended_add_negative {n q : Nat} {f g : Int} (hn : 0 < n) (hq : 0 < q)
    (small : n < 2 ^ 53) (filled : 2 ^ 52 ≤ q) (large : -1022 ≤ g) (bound : f ≤ 971) :
    extended (.finite .negative n f hn) ≤ extended (Float.Model.pack
      (UnpackedFloat.add Format.binary64 (.finite .negative n f hn)
        (.finite .positive q g hq))).unpack := by
  obtain ⟨D, sum, value⟩ := add_finite (s := .negative) (t := .positive) (e := f) (f := g) hn hq
  rw [valueOf_negative, valueOf_positive] at value
  rcases le_or_gt 0 D with above | below
  · obtain ⟨M, rfl⟩ := Int.eq_ofNat_of_zero_le above
    have lower : extended (.finite .negative n f hn) ≤ 0 := by
      rw [extended_negative]
      exact EReal.coe_nonpos.mpr (neg_nonpos.mpr (by positivity))
    rw [sum]
    exact lower.trans (extended_nonneg (notBelow_unpack_pack
      (notBelow_of_unsigned (normalize_positive M (min f g)).1)))
  · have order : g ≤ f := by
      by_contra short
      have lower := scaled_lt (not_le.mp short) small filled
      have negative : (D : ℝ) * 2 ^ min f g < 0 :=
        mul_neg_of_neg_of_pos (by exact_mod_cast below) (by positivity)
      linarith
    rw [min_eq_right order] at sum value
    obtain ⟨M, opposite⟩ := Int.eq_ofNat_of_zero_le (neg_nonneg.mpr below.le)
    obtain rfl : D = -(M : Int) := by omega
    push_cast at value
    have positive : 1 ≤ M := by omega
    have least : (2 : ℝ) ^ g ≤ M * 2 ^ g :=
      le_mul_of_one_le_left (by positivity) (by exact_mod_cast positive)
    have digits := le_log2_of_large least
    have added : (0 : ℝ) < q * 2 ^ g := by positivity
    obtain ⟨m, e, hm, rounded, normal, least, sides⟩ :=
      round_passes_none (M := M) (E := g) (by omega) (by omega)
    have lower := (sides n f small).2 (by linarith)
    have inside : e < 972 := by
      by_contra beyond
      have upper := scaled_lt (by omega : f < e) small ((Nat.log2_eq_iff hm.ne').mp normal).1
      linarith
    have sign : compare (-(M : Int)) 0 = .lt := compare_lt_iff_lt.mpr below
    rw [sum, UnpackedFloat.normalize, sign]
    dsimp only
    rw [neg_neg, Int.toNat_natCast, round_negative, rounded, unpack_pack_neg,
      unpack_pack_normal hm normal least, if_pos inside]
    change _ ≤ extended (.finite .negative m e hm)
    rw [extended_negative, extended_negative]
    exact EReal.coe_le_coe_iff.mpr (neg_le_neg lower)

theorem extended_le_add_tolerance {x : Float} (number : Scalar.isNaN x = false) :
    extended x.toModel.unpack ≤ extended (x + RiskSet.tolerance).toModel.unpack := by
  change _ ≤ extended (Float.Model.pack (UnpackedFloat.add Format.binary64 x.toModel.unpack
    (RiskSet.tolerance : Float).toModel.unpack)).unpack
  have known := ne_notANumber number
  have canonical := canonical_unpack x
  rw [unpack_tolerance]
  rcases parts : x.toModel.unpack with sign | _ | sign | ⟨sign, n, f, hn⟩
  · cases sign <;> exact le_rfl
  · exact absurd parts known
  · exact extended_nonneg (notBelow_unpack_pack rfl)
  · have bound := exponent_unpack_le parts
    rw [parts] at canonical
    cases sign
    · exact le_extended_add_negative hn _ canonical.1 (by norm_num) (by norm_num) bound
    · exact le_extended_add hn _ canonical.1 canonical.2.1 (by norm_num)

theorem compare_swap (u v : UnpackedFloat) : v.compare u = (u.compare v).map .swap := by
  have turned (e f : Int) (m n : Nat) : (compare f e).then (compare n m) =
      ((compare e f).then (compare m n)).swap := by
    rw [Ordering.swap_then, Int.compare_swap, Nat.compare_swap]
  rcases u with ⟨_ | _⟩ | _ | _ | ⟨_ | _, m, e, _⟩ <;>
    rcases v with ⟨_ | _⟩ | _ | _ | ⟨_ | _, n, f, _⟩
  all_goals first | rfl | simp [UnpackedFloat.compare, turned e f m n]

theorem not_le_of_lt {u v : UnpackedFloat} (below : u.lt v = true) : ¬ v.le u = true := by
  have order : u.compare v = some .lt := by simpa [UnpackedFloat.lt] using below
  rw [UnpackedFloat.le, compare_swap u v, order]
  exact Bool.false_ne_true

theorem not_add_tolerance_lt {x y : Float} (number : Scalar.isNaN x = false)
    (number' : Scalar.isNaN y = false) (below : y ≤ x) : ¬ x + RiskSet.tolerance < y := by
  by_cases undefined : Scalar.isNaN (x + RiskSet.tolerance) = true
  · intro late
    have order : (x + RiskSet.tolerance).toModel.unpack.lt y.toModel.unpack = true :=
      Iff.mp decide_eq_true_iff late
    rw [isNaN_iff.mp undefined] at order
    cases order
  · intro late
    rw [Bool.not_eq_true] at undefined
    have order : y ≤ x + RiskSet.tolerance := by
      rw [le_iff number' undefined]
      exact ((le_iff number' number).mp below).trans (extended_le_add_tolerance number)
    exact not_le_of_lt (Iff.mp decide_eq_true_iff late) (Iff.mp decide_eq_true_iff order)

end Passwise.Double
