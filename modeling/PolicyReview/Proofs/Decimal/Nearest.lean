import PolicyReview.Proofs.Decimal.Value

/-!
# Words nearest to exact magnitudes

The word nearest to the exact magnitude of a finite word is that word, so a decimal that spells all
its digits reads as the word.
-/

namespace PolicyReview
namespace Binary64

/-- A word is a multiple of the least positive word, or its significand has fifty-three bits. -/
theorem significand_spec (x : Binary64) :
    (x.code / 2 ^ 52 = 0 ∧ x.exponent = -1074 ∧ x.significand = x.code ∧ x.code < 2 ^ 52) ∨
      (0 < x.code / 2 ^ 52 ∧ x.exponent = (x.code / 2 ^ 52 : Nat) - 1075 ∧
        x.significand = 2 ^ 52 + x.code % 2 ^ 52) := by
  unfold exponent significand
  norm_num only
  by_cases least : x.code / 4503599627370496 = 0
  · left
    refine ⟨least, ?_, ?_, ?_⟩
    · rw [least]
      rfl
    · rw [if_pos least]
    · omega
  · right
    refine ⟨by omega, ?_, ?_⟩
    · rw [max_eq_left (by omega)]
    · rw [if_neg least]

theorem significand_pos {x : Binary64} (nonzero : x.code ≠ 0) : 0 < x.significand := by
  rcases significand_spec x with ⟨_, _, same, _⟩ | ⟨_, _, same⟩
  · omega
  · omega

theorem significand_lt (x : Binary64) : x.significand < 2 ^ 53 := by
  unfold significand
  split <;> omega

theorem value_magnitude (x : Binary64) :
    x.magnitude.value = x.significand * (2 : ℚ) ^ x.exponent := by
  rw [magnitude, Fraction.value_scale _ (by norm_num)]
  simp [Fraction.value]

/-- The word nearest to the exact magnitude of a word has its code. -/
theorem nearestCode_eq_code {x : Binary64} (nonzero : x.code ≠ 0) {f : Fraction}
    (den_pos : 0 < f.den) (same : f.value = x.magnitude.value) : nearestCode f = x.code := by
  have value_pos : 0 < f.value := by
    rw [same, value_magnitude]
    have := significand_pos nonzero
    positivity
  have num_pos : 0 < f.num := by
    rw [Fraction.value] at value_pos
    by_contra none
    have zero : f.num = 0 := by omega
    simp [zero] at value_pos
  rw [value_magnitude] at same
  have scaled (unit : Int) (exact : unit = x.exponent) :
      (f.scale 2 (-unit)).round .toEven = x.significand := by
    apply Fraction.round_eq_of_value_eq (Fraction.den_scale_pos den_pos (by norm_num) _)
    rw [Fraction.value_scale _ (by norm_num), same, exact, Nat.cast_ofNat, mul_assoc,
      ← zpow_add₀ (by norm_num)]
    simp
  unfold nearestCode
  simp only
  rcases significand_spec x with
    ⟨_, exponent_eq, significand_eq, small⟩ | ⟨normal, exponent_eq, significand_eq⟩
  -- Below the least normal word the unit is that of the least word, whatever the logarithm.
  · have log_le : f.floorLog2 < -1022 := by
      have lower := (Fraction.zpow_floorLog2_le_value_lt num_pos den_pos).1
      have upper : f.value < (2 : ℚ) ^ (-1022 : Int) := by
        calc f.value = x.significand * (2 : ℚ) ^ (-1074 : Int) := by rw [same, exponent_eq]
          _ < 2 ^ 52 * (2 : ℚ) ^ (-1074 : Int) := by
            gcongr
            rw [significand_eq]
            exact_mod_cast small
          _ = (2 : ℚ) ^ (-1022 : Int) := by
            rw [← zpow_natCast, ← zpow_add₀ (by norm_num)]
            norm_num
      exact (zpow_lt_zpow_iff_right₀ (by norm_num)).mp (lower.trans_lt upper)
    have unit_eq : max (f.floorLog2 - 52) (-1074) = -1074 := by omega
    rw [unit_eq, scaled _ exponent_eq.symm, significand_eq]
    simp
  · have log_eq : f.floorLog2 = x.exponent + 52 := by
      apply Fraction.floorLog2_eq num_pos den_pos
      · rw [same, add_comm, zpow_add₀ (by norm_num)]
        gcongr
        rw [significand_eq]
        push_cast
        norm_num
      · rw [same, add_assoc, add_comm, zpow_add₀ (by norm_num)]
        gcongr
        have := significand_lt x
        norm_num
        exact_mod_cast this
    have unit_eq : max (f.floorLog2 - 52) (-1074) = x.exponent := by omega
    rw [unit_eq, scaled _ rfl, significand_eq]
    omega

variable {x : Binary64}

/-- The magnitude of a finite word that is not zero lies well between the bounds beyond which
decimals are not looked at. -/
theorem magnitude_bounds (finite : x.isFinite = true) (nonzero : x.code ≠ 0) :
    (10 : ℚ) ^ (-400 : Int) < x.magnitude.value ∧ x.magnitude.value < (10 : ℚ) ^ (399 : Int) := by
  have code_lt : x.code < infinityCode := of_decide_eq_true finite
  unfold infinityCode at code_lt
  have exponent_ge : -1074 ≤ x.exponent := by
    unfold exponent
    omega
  have exponent_le : x.exponent ≤ 971 := by
    unfold exponent
    omega
  have significand_ge : (1 : ℚ) ≤ x.significand := by exact_mod_cast significand_pos nonzero
  have significand_lt : (x.significand : ℚ) < 2 ^ 53 := by exact_mod_cast x.significand_lt
  rw [value_magnitude]
  constructor
  · calc (10 : ℚ) ^ (-400 : Int) = ((10 : ℚ) ^ 400)⁻¹ := by rw [zpow_neg]; rfl
      _ < ((2 ^ 3 : ℚ) ^ 400)⁻¹ := by
          gcongr
          norm_num
      _ = (2 : ℚ) ^ (-1200 : Int) := by rw [← pow_mul, zpow_neg]; rfl
      _ ≤ (2 : ℚ) ^ x.exponent := zpow_le_zpow_right₀ (by norm_num) (by omega)
      _ ≤ x.significand * (2 : ℚ) ^ x.exponent :=
          le_mul_of_one_le_left (by positivity) significand_ge
  · calc (x.significand : ℚ) * (2 : ℚ) ^ x.exponent
        < 2 ^ 53 * (2 : ℚ) ^ x.exponent := by gcongr
      _ = (2 : ℚ) ^ (53 + x.exponent) := by
          rw [zpow_add₀ (by norm_num)]
          rfl
      _ ≤ (2 : ℚ) ^ (1197 : Int) := zpow_le_zpow_right₀ (by norm_num) (by omega)
      _ = (2 ^ 3 : ℚ) ^ 399 := by rw [← pow_mul]; rfl
      _ < (10 : ℚ) ^ 399 := by gcongr; norm_num
      _ = (10 : ℚ) ^ (399 : Int) := rfl

/-- A decimal with the exact magnitude of a finite word reads as the word. -/
theorem ofDecimal?_eq_some (finite : x.isFinite = true) (nonzero : x.code ≠ 0) {d : Decimal}
    (isDigit : ∀ c ∈ d.digits, c.isDigit = true) (same : d.value = x.magnitude.value) :
    ofDecimal? x.negative d = some x := by
  obtain ⟨lower, upper⟩ := magnitude_bounds finite nonzero
  have trimmed : d.trim.Trimmed := Decimal.trimmed_trim isDigit
  have same_trim : d.trim.value = x.magnitude.value := by rw [Decimal.value_trim, same]
  have nonempty : d.trim.digits ≠ [] := fun none => by
    have zero : d.trim.value = 0 := by simp [Decimal.value, Decimal.coefficient, none]
    rw [← same_trim, zero] at lower
    exact lower.not_ge (by positivity)
  obtain ⟨point_lower, point_upper⟩ := trimmed.zpow_le_value_lt nonempty
  rw [same_trim] at point_lower point_upper
  have point_ge : -400 < d.trim.point :=
    (zpow_lt_zpow_iff_right₀ (by norm_num)).mp (lower.trans point_upper)
  have point_le : d.trim.point - 1 < 399 :=
    (zpow_lt_zpow_iff_right₀ (by norm_num)).mp (point_lower.trans_lt upper)
  have code_eq : nearestCode d.trim.fraction = x.code :=
    nearestCode_eq_code nonzero d.trim.den_fraction_pos (by rw [Decimal.value_fraction, same_trim])
  have code_lt : x.code < infinityCode := of_decide_eq_true finite
  unfold ofDecimal? ofTrimmed? pointBound
  rw [if_neg (by simp [nonempty]; omega), if_neg (by omega), code_eq, ofCode?, dif_pos code_lt]

end Binary64
end PolicyReview
