import PolicyReview.Proofs.Decimal.Nearest
import Mathlib.Data.Nat.Cast.Order.Field

/-!
# Shortest decimals read back

The digits that are chosen for a finite word are few enough to be read without clipping, and they
read as the word: those found on a grid because they were tried, and the exact digits because they
spell the magnitude of the word.
-/

namespace PolicyReview

namespace Fraction

/-- The decimal point of a fraction is at most one place too low. -/
theorem value_lt_zpow_decimalPoint {f : Fraction} (den_pos : 0 < f.den) :
    f.value < (10 : ℚ) ^ (f.decimalPoint + 1) := by
  have num_lt : f.num < 10 ^ (Nat.toDigits 10 f.num).length :=
    (Nat.length_toDigits_le_iff (by norm_num) Nat.length_toDigits_pos).mp le_rfl
  have den_ge : 10 ^ ((Nat.toDigits 10 f.den).length - 1) ≤ f.den := by
    by_cases single : (Nat.toDigits 10 f.den).length = 1
    · rw [single]
      exact den_pos
    · have length_pos : 0 < (Nat.toDigits 10 f.den).length := Nat.length_toDigits_pos
      by_contra small
      have := (Nat.length_toDigits_le_iff (b := 10) (by norm_num) (by omega)).mpr (not_le.mp small)
      omega
  have point_ge : ((Nat.toDigits 10 f.num).length : Int) - (Nat.toDigits 10 f.den).length ≤
      f.decimalPoint := by
    unfold decimalPoint
    simp only
    split <;> omega
  have length_pos : 0 < (Nat.toDigits 10 f.den).length := Nat.length_toDigits_pos
  rw [value, div_lt_iff₀ (by exact_mod_cast den_pos)]
  calc (f.num : ℚ) < 10 ^ (Nat.toDigits 10 f.num).length := by exact_mod_cast num_lt
    _ = (10 : ℚ) ^ ((Nat.toDigits 10 f.num).length : Int) := (zpow_natCast _ _).symm
    _ ≤ (10 : ℚ) ^ (f.decimalPoint + 1 + ((Nat.toDigits 10 f.den).length - 1 : Nat)) :=
        zpow_le_zpow_right₀ (by norm_num) (by omega)
    _ = (10 : ℚ) ^ (f.decimalPoint + 1) * 10 ^ ((Nat.toDigits 10 f.den).length - 1) := by
        rw [zpow_add₀ (by norm_num), zpow_natCast]
    _ ≤ (10 : ℚ) ^ (f.decimalPoint + 1) * f.den := by
        gcongr
        exact_mod_cast den_ge

end Fraction

namespace Binary64

open Json.Numeral (digitLimit)

variable {x : Binary64} {tie : Tie}

/-- A decimal of few digits reads as the word. -/
structure Spells (d : Decimal) (x : Binary64) : Prop where
  trimmed : d.Trimmed
  nonempty : d.digits ≠ []
  length_le : d.digits.length ≤ digitLimit
  reads : ofDecimal? x.negative d = some x

theorem spells_ofNat (nonzero : x.code ≠ 0) {n : Nat} {exponent : Int} (small : n < 10 ^ digitLimit)
    (reads : ofDecimal? x.negative (Decimal.ofNat n exponent) = some x) :
    Spells (Decimal.ofNat n exponent) x where
  trimmed := Decimal.trimmed_ofNat n exponent
  nonempty := by
    intro none
    have trim_eq := (Decimal.trimmed_ofNat n exponent).trim_eq
    rw [ofDecimal?, trim_eq, ofTrimmed?, if_pos (by simp [none])] at reads
    exact nonzero (congrArg code (Option.some.inj reads)).symm
  length_le := Decimal.length_digits_ofNat_le (by decide) small exponent
  reads := reads

theorem spells_of_nearestOfLength? (nonzero : x.code ≠ 0) {count : Nat} (count_le : count ≤ 17)
    {d : Decimal} (found : x.nearestOfLength? tie count = some d) : Spells d x := by
  unfold nearestOfLength? at found
  simp only at found
  set unit := x.magnitude.decimalPoint - count with unit_eq
  set steps := x.magnitude.scale 10 (-unit) with steps_eq
  have den_pos : 0 < x.magnitude.den := Fraction.den_scale_pos (by norm_num) (by norm_num) _
  have quotient_lt : steps.num / steps.den < 10 ^ 18 := by
    have quotient_le : ((steps.num / steps.den : Nat) : ℚ) ≤ steps.value := Nat.cast_div_le
    have steps_lt : steps.value < (10 : ℚ) ^ (18 : Int) := by
      rw [steps_eq, Fraction.value_scale _ (by norm_num)]
      calc x.magnitude.value * ((10 : Nat) : ℚ) ^ (-unit)
          < (10 : ℚ) ^ (x.magnitude.decimalPoint + 1) * ((10 : Nat) : ℚ) ^ (-unit) := by
            gcongr
            exact Fraction.value_lt_zpow_decimalPoint den_pos
        _ = (10 : ℚ) ^ (x.magnitude.decimalPoint + 1 + -unit) := by
            rw [zpow_add₀ (by norm_num) (_ + 1), Nat.cast_ofNat]
        _ ≤ (10 : ℚ) ^ (18 : Int) := zpow_le_zpow_right₀ (by norm_num) (by omega)
    exact_mod_cast quotient_le.trans_lt steps_lt
  have few : (10 : Nat) ^ 18 < 10 ^ digitLimit :=
    Nat.pow_lt_pow_right (by norm_num) (by decide)
  have below_spells (reads : x.readsBack (Decimal.ofNat (steps.num / steps.den) unit) = true) :
      Spells (Decimal.ofNat (steps.num / steps.den) unit) x :=
    spells_ofNat nonzero (by omega) (eq_of_beq reads)
  have above_spells (reads : x.readsBack (Decimal.ofNat (steps.num / steps.den + 1) unit) = true) :
      Spells (Decimal.ofNat (steps.num / steps.den + 1) unit) x :=
    spells_ofNat nonzero (by omega) (eq_of_beq reads)
  split at found
  · cases found
  · rename_i below _
    cases found
    exact below_spells below
  · rename_i _ above
    cases found
    exact above_spells above
  · rename_i below above
    split at found
    · cases found
      exact below_spells below
    · cases found
      exact above_spells above

theorem spells_exactDecimal (finite : x.isFinite = true) (nonzero : x.code ≠ 0) :
    Spells x.exactDecimal x := by
  have significand_lt := x.significand_lt
  have code_lt : x.code < 2047 * 2 ^ 52 := of_decide_eq_true finite
  unfold exactDecimal
  simp only [Nat.pow_eq]
  split
  · rename_i nonneg
    apply spells_ofNat nonzero
    · have exponent_le : 53 + x.exponent.toNat ≤ 3 * digitLimit := by
        unfold exponent digitLimit
        omega
      calc x.significand * 2 ^ x.exponent.toNat < 2 ^ 53 * 2 ^ x.exponent.toNat :=
            Nat.mul_lt_mul_of_pos_right significand_lt (by positivity)
        _ = 2 ^ (53 + x.exponent.toNat) := (pow_add 2 53 _).symm
        _ ≤ 2 ^ (3 * digitLimit) := Nat.pow_le_pow_right (by norm_num) exponent_le
        _ = (2 ^ 3) ^ digitLimit := pow_mul 2 3 digitLimit
        _ ≤ 10 ^ digitLimit := Nat.pow_le_pow_left (by norm_num) _
    · apply ofDecimal?_eq_some finite nonzero (Decimal.trimmed_ofNat _ _).isDigit
      rw [Decimal.value_ofNat, value_magnitude]
      conv_rhs => rw [← Int.toNat_of_nonneg nonneg, zpow_natCast]
      simp
  · rename_i negative
    apply spells_ofNat nonzero
    · have exponent_le : (-x.exponent).toNat ≤ 3 * 102 + digitLimit := by
        unfold exponent digitLimit
        omega
      have five_le : 5 ^ (3 * 102) ≤ 2 ^ (7 * 102) := by
        rw [pow_mul, pow_mul]
        exact Nat.pow_le_pow_left (by norm_num) _
      calc x.significand * 5 ^ (-x.exponent).toNat < 2 ^ 53 * 5 ^ (-x.exponent).toNat :=
            Nat.mul_lt_mul_of_pos_right significand_lt (by positivity)
        _ ≤ 2 ^ 53 * 5 ^ (3 * 102 + digitLimit) := by gcongr; norm_num
        _ = 2 ^ 53 * 5 ^ (3 * 102) * 5 ^ digitLimit := by rw [pow_add, mul_assoc]
        _ ≤ 2 ^ 53 * 2 ^ (7 * 102) * 5 ^ digitLimit := by gcongr
        _ = 2 ^ (53 + 7 * 102) * 5 ^ digitLimit := by rw [← pow_add]
        _ ≤ 2 ^ digitLimit * 5 ^ digitLimit := by
            gcongr
            · norm_num
            · decide
        _ = (2 * 5) ^ digitLimit := by rw [mul_pow]
        _ = 10 ^ digitLimit := by norm_num
    · apply ofDecimal?_eq_some finite nonzero (Decimal.trimmed_ofNat _ _).isDigit
      rw [Decimal.value_ofNat, value_magnitude]
      have exponent_eq : x.exponent = -((-x.exponent).toNat : Int) := by omega
      conv_lhs => rw [exponent_eq, neg_neg, Int.toNat_natCast]
      conv_rhs => rw [exponent_eq]
      rw [zpow_neg, zpow_neg, zpow_natCast, zpow_natCast]
      push_cast
      rw [show (10 : ℚ) = 2 * 5 by norm_num, mul_pow]
      field_simp

/-- The digits that are written for a word that is not zero read as the word. -/
theorem spells_decimal (finite : x.isFinite = true) (nonzero : x.code ≠ 0) (tie : Tie) :
    Spells (x.decimal tie) x := by
  unfold decimal
  rw [if_neg nonzero]
  cases found : (List.range' 1 17).findSome? (x.nearestOfLength? tie) with
  | none => exact spells_exactDecimal finite nonzero
  | some d =>
    obtain ⟨count, count_mem, count_found⟩ := List.exists_of_findSome?_eq_some found
    have count_le : count ≤ 17 := by
      have := List.mem_range'_1.mp count_mem
      omega
    exact spells_of_nearestOfLength? nonzero count_le count_found

end Binary64

end PolicyReview
