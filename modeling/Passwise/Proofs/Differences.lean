import Passwise.Proofs.Values
import Passwise.RiskSet

set_option autoImplicit false

namespace Passwise.Double

open Float.Model Float.Model.UnpackedFloat

theorem mantissa_shiftRight (em : ExtendedMantissa) (k : Nat) :
    (em >>> k).mantissa = em.mantissa / 2 ^ k := by
  induction k with
  | zero => simp [HShiftRight.hShiftRight, Nat.repeat]
  | succ k ih =>
    have step : (em >>> (k + 1)) = (em >>> k).shiftRightOne := rfl
    rw [step, ExtendedMantissa.shiftRightOne, ih, Nat.div_div_eq_div_mul, Nat.pow_succ]

theorem roundedMantissa_bounds (em : ExtendedMantissa) :
    em.mantissa ≤ em.roundedMantissa ∧ em.roundedMantissa ≤ em.mantissa + 1 := by
  obtain ⟨m, _ | _, _ | _⟩ := em
  · exact ⟨le_rfl, m.le_succ⟩
  · exact ⟨le_rfl, m.le_succ⟩
  · change m ≤ m + m % 2 ∧ m + m % 2 ≤ m + 1
    omega
  · exact ⟨m.le_succ, le_rfl⟩

theorem shiftToTarget_large {M : Nat} {E : Int} {k : Nat} (log : M.log2 = 52 + k)
    (least : -1074 ≤ E + k) :
    shiftToTargetExponent Format.binary64 M E .exact =
      ((⟨M, false, false⟩ : ExtendedMantissa) >>> k, E + k) := by
  have target : Format.binary64.targetExponent (totalExponent M E) = E + k := by
    simp only [Format.targetExponent, totalExponent, Format.mantissaBits, Format.minExponent, log]
    norm_num
    omega
  have shift : (E + k - E).toNat = k := by omega
  rw [shiftToTargetExponent, target, shiftToExponent, shift]
  rfl

-- A mantissa that is rounded up to the next power of two moves the exponent by one.
theorem round_rounded {M : Nat} {E : Int} {k : Nat} (log : M.log2 = 52 + k)
    (least : -1074 ≤ E + k) :
    ∃ m e positive, roundWithAccuracy Format.binary64 .positive M E .exact =
      .finite .positive m e positive ∧ m.log2 = 52 ∧
      (e = E + k ∧ m = ((⟨M, false, false⟩ : ExtendedMantissa) >>> k).roundedMantissa ∨
        e = E + k + 1 ∧
          m * 2 = ((⟨M, false, false⟩ : ExtendedMantissa) >>> k).roundedMantissa) := by
  have nonzero : M ≠ 0 := by
    rintro rfl
    simp at log
    omega
  obtain ⟨lower, upper⟩ := (Nat.log2_eq_iff nonzero).mp log
  have floorLower : 2 ^ 52 ≤ M / 2 ^ k := by
    rw [Nat.le_div_iff_mul_le (by positivity), ← Nat.pow_add]
    exact lower
  have floorUpper : M / 2 ^ k < 2 ^ 53 := by
    rw [Nat.div_lt_iff_lt_mul (by positivity), ← Nat.pow_add]
    exact upper.trans_eq (by ring)
  obtain ⟨above, below⟩ := roundedMantissa_bounds ((⟨M, false, false⟩ : ExtendedMantissa) >>> k)
  rw [mantissa_shiftRight] at above below
  unfold roundWithAccuracy
  rw [shiftToTarget_large log least]
  dsimp only at above below ⊢
  generalize ((⟨M, false, false⟩ : ExtendedMantissa) >>> k).roundedMantissa = r at above below ⊢
  rcases (by omega : r < 2 ^ 53 ∨ r = 2 ^ 52 * 2 ^ 1) with fits | rfl
  · have normal : r.log2 = 52 := (Nat.log2_eq_iff (by omega)).mpr ⟨by omega, fits⟩
    have again := shiftToTarget_normal (by omega) normal 0 least
    rw [Nat.pow_zero, Nat.mul_one, Int.natCast_zero, Int.sub_zero] at again
    rw [again]
    exact ⟨r, E + k, by omega, dif_neg (by dsimp only; omega), normal, .inl ⟨rfl, rfl⟩⟩
  · have again := shiftToTarget_normal (m := 2 ^ 52) (by norm_num) (by decide) 1
      (e := E + k + 1) (by omega)
    rw [Int.natCast_one, Int.add_sub_cancel] at again
    rw [again]
    exact ⟨2 ^ 52, E + k + 1, by norm_num, rfl, by decide, .inr ⟨rfl, rfl⟩⟩

theorem round_large {M : Nat} {E : Int} {k : Nat} (log : M.log2 = 52 + k)
    (least : -1074 ≤ E + k) :
    ∃ m e positive, roundWithAccuracy Format.binary64 .positive M E .exact =
      .finite .positive m e positive ∧ m.log2 = 52 ∧
      (e = E + k ∧ M / 2 ^ k ≤ m ∨ e = E + k + 1) := by
  obtain ⟨m, e, positive, rounded, normal, near⟩ := round_rounded log least
  refine ⟨m, e, positive, rounded, normal, near.imp ?_ And.left⟩
  rintro ⟨same, rfl⟩
  have above := (roundedMantissa_bounds ((⟨M, false, false⟩ : ExtendedMantissa) >>> k)).1
  rw [mantissa_shiftRight] at above
  exact ⟨same, above⟩

theorem unpack_pack_normal {m : Nat} {e : Int} (positive : 0 < m) (normal : m.log2 = 52)
    (least : -1074 ≤ e) :
    (Float.Model.pack (.finite .positive m e positive)).unpack =
      if e < 972 then .finite .positive m e positive else .infinity .positive := by
  change UnpackedFloat.unpack Format.binary64 (UnpackedFloat.pack Format.binary64 _) = _
  obtain ⟨field, rfl⟩ : ∃ field : Nat, e = field - 1075 := ⟨(e + 1075).toNat, by omega⟩
  split_ifs with inside
  · rw [pack_normal positive normal (by omega), unpack_normal positive normal (by omega) (by omega)]
  · have full : 2 ^ Format.binary64.exponentBits ≤ ((field : Int) - 1075 +
        (Format.exponentBias Format.binary64 : Nat) +
        (Format.binary64.mantissaBitsWithoutImplicit : Nat)).toNat + 1 := by
      simp only [Format.exponentBias]
      norm_num
      omega
    unfold UnpackedFloat.pack
    dsimp only
    rw [if_pos full]
    rfl

theorem round_shifted {M : Nat} {E : Int} (nonzero : M ≠ 0) (least : -1022 ≤ M.log2 + E) :
    ∃ j k : Nat, UnpackedFloat.round Format.binary64 .positive M E =
        roundWithAccuracy Format.binary64 .positive (M * 2 ^ j) (E - j) .exact ∧
      (M * 2 ^ j).log2 = 52 + k ∧ E - j + k = M.log2 + E - 52 := by
  have target : Format.binary64.targetExponent (totalExponent M E) = M.log2 + E - 52 := by
    simp only [Format.targetExponent, totalExponent, Format.mantissaBits, Format.minExponent]
    norm_num
    omega
  let j := (E - (M.log2 + E - 52)).toNat
  refine ⟨j, M.log2 + j - 52, ?_, ?_, by omega⟩
  · rw [UnpackedFloat.round, target, decreaseExponent, Nat.shiftLeft_eq]
  · rw [log2_mul_two_pow (Nat.pos_of_ne_zero nonzero)]
    omega

theorem scaled_shift (m j : Nat) (e : Int) :
    (m : ℝ) * 2 ^ e = (m * 2 ^ j : ℕ) * 2 ^ (e - j) := by
  push_cast
  rw [mul_assoc, ← zpow_natCast, ← zpow_add₀ two_ne_zero, add_sub_cancel]

theorem exists_round {M : Nat} {E : Int} (nonzero : M ≠ 0) (least : -1022 ≤ M.log2 + E) :
    ∃ m e positive, UnpackedFloat.round Format.binary64 .positive M E =
      .finite .positive m e positive ∧ m.log2 = 52 ∧
      (e = M.log2 + E - 52 ∧ (∀ n : Nat, (n : ℝ) * 2 ^ e ≤ M * 2 ^ E → n ≤ m) ∨
        e = M.log2 + E - 51) := by
  obtain ⟨j, k, same, log, shifted⟩ := round_shifted nonzero least
  obtain ⟨m, e, positive, rounded, normal, near⟩ := round_large (E := E - (j : Int)) log (by omega)
  rw [shifted] at near
  refine ⟨m, e, positive, same.trans rounded, normal, near.imp ?_ (by omega)⟩
  rintro ⟨least, above⟩
  refine ⟨least, fun n below => (Nat.le_div_iff_mul_le (by positivity)).mpr ?_ |>.trans above⟩
  have digits : e - k = E - j := by omega
  rw [scaled_shift M j, scaled_shift n k, digits] at below
  exact_mod_cast le_of_mul_le_mul_right below (by positivity)

theorem unpack_tolerance : (RiskSet.tolerance : Float).toModel.unpack =
    .finite .positive 4722366482869645 (-72) (by norm_num) := by
  rfl

theorem le_log2_of_large {M : Nat} {E c : Int} (large : (2 : ℝ) ^ c ≤ M * 2 ^ E) :
    c ≤ M.log2 + E := by
  have upper : (M : ℝ) < 2 ^ ((M.log2 : Int) + 1) := by exact_mod_cast Nat.lt_log2_self
  have wide : (2 : ℝ) ^ c < 2 ^ ((M.log2 : Int) + 1 + E) := calc
    (2 : ℝ) ^ c ≤ M * 2 ^ E := large
    _ < 2 ^ ((M.log2 : Int) + 1) * 2 ^ E := by gcongr
    _ = 2 ^ ((M.log2 : Int) + 1 + E) := (zpow_add₀ two_ne_zero _ _).symm
  have order := (zpow_lt_zpow_iff_right₀ one_lt_two).mp wide
  omega

theorem tolerance_le_round {M : Nat} {E : Int} (apart : 1 / 1000000 ≤ (M : ℝ) * 2 ^ E) :
    (RiskSet.tolerance : Float).toModel.unpack.le
      (Float.Model.pack (UnpackedFloat.round Format.binary64 .positive M E)).unpack = true := by
  have nonzero : M ≠ 0 := by
    rintro rfl
    norm_num at apart
  have least : -20 ≤ (M.log2 : Int) + E :=
    le_log2_of_large (le_trans (by norm_num) apart)
  obtain ⟨m, e, positive, rounded, normal, near⟩ := exists_round (E := E) nonzero (by omega)
  have above : -72 < e ∨ e = -72 ∧ 4722366482869645 ≤ m := by
    rcases near with ⟨same, fits⟩ | next
    · by_cases lowest : e = -72
      · refine .inr ⟨lowest, fits _ (le_trans ?_ apart)⟩
        rw [lowest]
        norm_num
      · omega
    · omega
  rw [rounded, unpack_tolerance, unpack_pack_normal positive normal (by omega)]
  split_ifs
  · rcases above with above | ⟨rfl, above⟩
    · have order : compare (-72) e = .lt := compare_lt_iff_lt.mpr above
      simp [UnpackedFloat.le, UnpackedFloat.compare, order]
    · simpa [UnpackedFloat.le, UnpackedFloat.compare, Nat.isLE_compare] using above
  · rfl

theorem round_of_large {m : Nat} {e : Int} (positive : 0 < m)
    (canonical : Canonical (.finite .positive m e positive))
    (large : 1 / 1000000 ≤ (m : ℝ) * 2 ^ e) :
    UnpackedFloat.round Format.binary64 .positive m e = .finite .positive m e positive := by
  obtain ⟨upper, least, filled⟩ := canonical
  have lower : 2 ^ 52 ≤ m := by
    refine filled.resolve_right ?_
    rintro rfl
    have tiny : (m : ℝ) * 2 ^ (-1074 : Int) < 1 / 1000000 := calc
      (m : ℝ) * 2 ^ (-1074 : Int) < 2 ^ (53 : Int) * 2 ^ (-1074 : Int) := by
        gcongr
        exact_mod_cast upper
      _ = 2 ^ (-1021 : Int) := by rw [← zpow_add₀ two_ne_zero]; rfl
      _ ≤ 2 ^ (-20 : Int) := zpow_le_zpow_right₀ one_le_two (by norm_num)
      _ < 1 / 1000000 := by norm_num
    exact absurd large tiny.not_ge
  have normal : m.log2 = 52 := (Nat.log2_eq_iff positive.ne').mpr ⟨lower, upper⟩
  have target : Format.binary64.targetExponent (totalExponent m e) = e := by
    simp only [Format.targetExponent, totalExponent, Format.mantissaBits, Format.minExponent,
      normal]
    norm_num
    omega
  have whole := round_normal positive normal 0 least
  rw [Nat.pow_zero, Nat.mul_one, Int.natCast_zero, Int.sub_zero] at whole
  rw [UnpackedFloat.round, target, decreaseExponent, Int.sub_self]
  simpa using whole

theorem tolerance_le_finite {m : Nat} {e : Int} (positive : 0 < m)
    (canonical : Canonical (.finite .positive m e positive))
    (large : 1 / 1000000 ≤ (m : ℝ) * 2 ^ e) :
    (RiskSet.tolerance : Float).toModel.unpack.le
      (Float.Model.pack (.finite .positive m e positive)).unpack = true := by
  rw [← round_of_large positive canonical large]
  exact tolerance_le_round large

theorem apply_shiftLeft (sign : Sign) (m j : Nat) :
    sign.apply ((m <<< j : Nat) : Int) = sign.apply m * 2 ^ j := by
  cases sign <;> simp [Sign.apply, Nat.shiftLeft_eq]

theorem normalize_positive (k : Nat) (e : Int) :
    Unsigned (normalize Format.binary64 k e .positive) ∧
      normalize Format.binary64 k e .positive ≠ .notANumber := by
  rcases Nat.eq_zero_or_pos k with rfl | above
  · refine ⟨rfl, fun undefined => ?_⟩
    cases undefined
  · have rounded : normalize Format.binary64 k e .positive =
        UnpackedFloat.round Format.binary64 .positive k e := by
      have greater : compare (k : Int) 0 = .gt := Int.compare_eq_gt.mpr (by exact_mod_cast above)
      unfold UnpackedFloat.normalize
      rw [greater]
      simp
    rw [rounded, UnpackedFloat.round]
    refine ⟨unsigned_round _ _ _, ?_⟩
    unfold roundWithAccuracy
    dsimp only
    split_ifs <;> simp

theorem scaled_down (a : Int) {g low : Int} (above : low ≤ g) :
    (a : ℝ) * 2 ^ (g - low).toNat * 2 ^ low = a * 2 ^ g := by
  rw [mul_assoc, ← zpow_natCast, ← zpow_add₀ two_ne_zero]
  congr 2
  omega

theorem sub_finite {s t : Sign} {m n : Nat} {e f : Int} (hm : 0 < m) (hn : 0 < n) :
    ∃ D : Int, UnpackedFloat.sub Format.binary64 (.finite s m e hm) (.finite t n f hn) =
        UnpackedFloat.normalize Format.binary64 D (min e f) .positive ∧
      (D : ℝ) * 2 ^ min e f = valueOf (.finite s m e hm) - valueOf (.finite t n f hn) := by
  refine ⟨_, rfl, ?_⟩
  simp only [apply_shiftLeft]
  push_cast
  rw [sub_mul, scaled_down _ (min_le_left e f), scaled_down _ (min_le_right e f)]
  rfl

theorem tolerance_le_sub_valueOf {u v : UnpackedFloat} (left : Canonical u) (right : Canonical v)
    (finite : u.isFinite = true) (finite' : v.isFinite = true)
    (apart : 1 / 1000000 ≤ valueOf u - valueOf v) :
    (RiskSet.tolerance : Float).toModel.unpack.le
      (Float.Model.pack (UnpackedFloat.sub Format.binary64 u v)).unpack = true := by
  have below {m : Nat} (e : Int) (above : 0 < m) : ¬ 1 / 1000000 ≤ -((m : ℝ) * 2 ^ e) := by
    have : (0 : ℝ) < m * 2 ^ e := by positivity
    linarith
  rcases u with _ | _ | _ | ⟨s, m, e, hm⟩
  · cases finite
  · cases finite
  · rcases v with _ | _ | _ | ⟨_ | _, n, f, hn⟩
    · cases finite'
    · cases finite'
    · norm_num [valueOf] at apart
    · exact tolerance_le_finite hn right (by simpa [valueOf, Sign.apply] using apart)
    · exact absurd (by simpa [valueOf, Sign.apply] using apart) (below f hn)
  · rcases v with _ | _ | _ | ⟨t, n, f, hn⟩
    · cases finite'
    · cases finite'
    · cases s
      · exact absurd (by simpa [valueOf, Sign.apply] using apart) (below e hm)
      · exact tolerance_le_finite hm left (by simpa [valueOf, Sign.apply] using apart)
    · obtain ⟨D, difference, value⟩ := sub_finite (s := s) (t := t) (e := e) (f := f) hm hn
      rw [← value] at apart
      have positive : 0 < D := by
        by_contra below
        have : (D : ℝ) * 2 ^ min e f ≤ 0 :=
          mul_nonpos_of_nonpos_of_nonneg (by exact_mod_cast not_lt.mp below) (by positivity)
        linarith
      obtain ⟨M, rfl⟩ := Int.eq_ofNat_of_zero_le positive.le
      have sign : compare (M : Int) 0 = .gt := compare_gt_iff_gt.mpr positive
      rw [difference, UnpackedFloat.normalize, sign]
      exact tolerance_le_round (by simpa using apart)

theorem tolerance_le_sub {x y : Float} {r s : ℝ} (value : HasValue x r) (value' : HasValue y s)
    (apart : 1 / 1000000 ≤ r - s) : RiskSet.tolerance ≤ x - y := by
  obtain ⟨finite, rfl⟩ := hasValue_iff.mp value
  obtain ⟨finite', rfl⟩ := hasValue_iff.mp value'
  exact Iff.mpr decide_eq_true_iff (tolerance_le_sub_valueOf (canonical_unpack x)
    (canonical_unpack y) finite finite' apart)

theorem unpack_pack_top :
    (Float.Model.pack (.infinity .positive)).unpack = .infinity .positive := by
  rfl

theorem unpack_pack_notANumber : (Float.Model.pack .notANumber).unpack = .notANumber := by
  rfl

theorem tolerance_le_sub_of_top {x y : Float} {s : ℝ} (top : x.toModel.unpack = .infinity .positive)
    (value : HasValue y s) : RiskSet.tolerance ≤ x - y := by
  obtain ⟨finite, -⟩ := hasValue_iff.mp value
  have unbounded : UnpackedFloat.sub Format.binary64 x.toModel.unpack y.toModel.unpack =
      .infinity .positive := by
    rw [top]
    generalize y.toModel.unpack = v at finite
    cases v with
    | notANumber => cases finite
    | infinity => cases finite
    | _ => rfl
  refine Iff.mpr decide_eq_true_iff ?_
  change (RiskSet.tolerance : Float).toModel.unpack.le (Float.Model.pack
    (UnpackedFloat.sub Format.binary64 x.toModel.unpack y.toModel.unpack)).unpack = true
  rw [unbounded, unpack_pack_top, unpack_tolerance]
  rfl

theorem not_tolerance_le_sub {x : Float} (undefined : Scalar.isNaN x = true) (y : Float) :
    ¬ RiskSet.tolerance ≤ x - y := by
  have nothing : UnpackedFloat.sub Format.binary64 x.toModel.unpack y.toModel.unpack =
      .notANumber := by
    rw [isNaN_iff.mp undefined]
    cases y.toModel.unpack <;> rfl
  intro apart
  have order : (RiskSet.tolerance : Float).toModel.unpack.le (Float.Model.pack
    (UnpackedFloat.sub Format.binary64 x.toModel.unpack y.toModel.unpack)).unpack = true :=
    Iff.mp decide_eq_true_iff apart
  rw [nothing, unpack_pack_notANumber, unpack_tolerance] at order
  cases order

theorem not_add_lt {x : Float} (undefined : Scalar.isNaN x = true) (y z : Float) :
    ¬ x + y < z := by
  have nothing : UnpackedFloat.add Format.binary64 x.toModel.unpack y.toModel.unpack =
      .notANumber := by
    rw [isNaN_iff.mp undefined]
    cases y.toModel.unpack <;> rfl
  intro below
  have order : (Float.Model.pack (UnpackedFloat.add Format.binary64 x.toModel.unpack
    y.toModel.unpack)).unpack.lt z.toModel.unpack = true := Iff.mp decide_eq_true_iff below
  rw [nothing, unpack_pack_notANumber] at order
  generalize z.toModel.unpack = w at order
  cases w <;> cases order

end Passwise.Double
