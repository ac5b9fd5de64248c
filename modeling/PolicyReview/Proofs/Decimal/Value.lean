import PolicyReview.Json.Number
import Mathlib.Algebra.Order.Field.Power
import Mathlib.Data.List.TakeWhile
import Mathlib.Data.Rat.Cast.Order
import Mathlib.Tactic.FieldSimp
import Mathlib.Tactic.Linarith
import Mathlib.Tactic.NormNum
import Mathlib.Tactic.Ring

/-!
# Values of fractions and decimals

A fraction and a decimal stand for a rational number.  Scaling multiplies that number by a power,
trimming keeps it, and the place of the point of a trimmed decimal is its order of magnitude.
-/

namespace PolicyReview

namespace Fraction

/-- The rational number that a fraction stands for. -/
def value (f : Fraction) : ℚ :=
  f.num / f.den

theorem den_scale_pos {f : Fraction} (den_pos : 0 < f.den) {base : Nat} (base_pos : 0 < base)
    (exponent : Int) : 0 < (f.scale base exponent).den := by
  unfold scale
  split
  · exact den_pos
  · exact Nat.mul_pos den_pos (Nat.pow_pos base_pos)

theorem value_scale (f : Fraction) {base : Nat} (base_pos : 0 < base) (exponent : Int) :
    (f.scale base exponent).value = f.value * (base : ℚ) ^ exponent := by
  have base_ne : (base : ℚ) ≠ 0 := by exact_mod_cast base_pos.ne'
  unfold scale
  split
  · rename_i nonneg
    have power : (base : ℚ) ^ exponent = (base : ℚ) ^ exponent.toNat := by
      rw [← zpow_natCast, Int.toNat_of_nonneg nonneg]
    simp only [value, Nat.pow_eq]
    rw [power]
    push_cast
    ring
  · rename_i negative
    have power : (base : ℚ) ^ exponent = ((base : ℚ) ^ (-exponent).toNat)⁻¹ := by
      rw [← zpow_natCast, Int.toNat_of_nonneg (by omega), zpow_neg, inv_inv]
    simp only [value, Nat.pow_eq]
    rw [power]
    push_cast
    field_simp

theorem den_le_num_iff {f : Fraction} (den_pos : 0 < f.den) : f.den ≤ f.num ↔ 1 ≤ f.value := by
  have den_pos : (0 : ℚ) < f.den := by exact_mod_cast den_pos
  rw [value, le_div_iff₀ den_pos, one_mul]
  exact_mod_cast Iff.rfl

/-- A fraction that is an integer rounds to that integer. -/
theorem round_eq_of_value_eq {f : Fraction} (den_pos : 0 < f.den) (tie : Tie) {n : Nat}
    (whole : f.value = n) : f.round tie = n := by
  have den_ne : (f.den : ℚ) ≠ 0 := by exact_mod_cast den_pos.ne'
  have num_eq : f.num = n * f.den := by
    rw [value, div_eq_iff den_ne] at whole
    exact_mod_cast whole
  have quotient : f.num / f.den = n := by rw [num_eq, Nat.mul_div_cancel _ den_pos]
  have rest : f.num % f.den = 0 := by rw [num_eq, Nat.mul_mod_left]
  simp [round, quotient, rest, den_pos]

theorem zpow_le_value_lt {f : Fraction} (num_pos : 0 < f.num) (den_pos : 0 < f.den) :
    (2 : ℚ) ^ ((Nat.log2 f.num : Int) - Nat.log2 f.den - 1) ≤ f.value ∧
      f.value < (2 : ℚ) ^ ((Nat.log2 f.num : Int) - Nat.log2 f.den + 1) := by
  have num_ge : (2 : ℚ) ^ (Nat.log2 f.num) ≤ f.num := by
    exact_mod_cast Nat.log2_self_le num_pos.ne'
  have num_lt : (f.num : ℚ) < 2 ^ (Nat.log2 f.num + 1) := by
    exact_mod_cast Nat.lt_log2_self
  have den_ge : (2 : ℚ) ^ (Nat.log2 f.den) ≤ f.den := by
    exact_mod_cast Nat.log2_self_le den_pos.ne'
  have den_lt : (f.den : ℚ) < 2 ^ (Nat.log2 f.den + 1) := by
    exact_mod_cast Nat.lt_log2_self
  have den_pos : (0 : ℚ) < f.den := by exact_mod_cast den_pos
  have two_ne : (2 : ℚ) ≠ 0 := by norm_num
  constructor
  · rw [value, le_div_iff₀ den_pos]
    calc (2 : ℚ) ^ ((Nat.log2 f.num : Int) - Nat.log2 f.den - 1) * f.den
        ≤ (2 : ℚ) ^ ((Nat.log2 f.num : Int) - Nat.log2 f.den - 1) * 2 ^ (Nat.log2 f.den + 1) := by
          gcongr
      _ = (2 : ℚ) ^ (Nat.log2 f.num) := by
          rw [← zpow_natCast, ← zpow_add₀ two_ne, ← zpow_natCast]
          congr 1
          push_cast
          ring
      _ ≤ f.num := num_ge
  · rw [value, div_lt_iff₀ den_pos]
    calc (f.num : ℚ) < 2 ^ (Nat.log2 f.num + 1) := num_lt
      _ = (2 : ℚ) ^ ((Nat.log2 f.num : Int) - Nat.log2 f.den + 1) * 2 ^ (Nat.log2 f.den) := by
          rw [← zpow_natCast, ← zpow_natCast, ← zpow_add₀ two_ne]
          congr 1
          push_cast
          ring
      _ ≤ (2 : ℚ) ^ ((Nat.log2 f.num : Int) - Nat.log2 f.den + 1) * f.den := by gcongr

/-- The binary logarithm is exact. -/
theorem zpow_floorLog2_le_value_lt {f : Fraction} (num_pos : 0 < f.num) (den_pos : 0 < f.den) :
    (2 : ℚ) ^ f.floorLog2 ≤ f.value ∧ f.value < (2 : ℚ) ^ (f.floorLog2 + 1) := by
  obtain ⟨lower, upper⟩ := zpow_le_value_lt num_pos den_pos
  have two_pos : (0 : ℚ) < 2 := by norm_num
  unfold floorLog2
  simp only
  set guess : Int := (Nat.log2 f.num : Int) - Nat.log2 f.den with guess_eq
  have compare :
      (f.scale 2 (-guess)).den ≤ (f.scale 2 (-guess)).num ↔ (2 : ℚ) ^ guess ≤ f.value := by
    rw [den_le_num_iff (den_scale_pos den_pos (by norm_num) _), value_scale _ (by norm_num),
      zpow_neg, ← div_eq_mul_inv, le_div_iff₀ (zpow_pos (by norm_num) _), one_mul]
    norm_num
  split
  · rename_i reaches
    exact ⟨compare.mp reaches, upper⟩
  · rename_i misses
    refine ⟨lower, ?_⟩
    rw [sub_add_cancel]
    exact lt_of_not_ge fun reaches => misses (compare.mpr reaches)

theorem floorLog2_eq {f : Fraction} (num_pos : 0 < f.num) (den_pos : 0 < f.den) {e : Int}
    (lower : (2 : ℚ) ^ e ≤ f.value) (upper : f.value < (2 : ℚ) ^ (e + 1)) : f.floorLog2 = e := by
  obtain ⟨log_lower, log_upper⟩ := zpow_floorLog2_le_value_lt num_pos den_pos
  have one_lt : (1 : ℚ) < 2 := by norm_num
  have below : f.floorLog2 < e + 1 := (zpow_lt_zpow_iff_right₀ one_lt).mp (log_lower.trans_lt upper)
  have above : e < f.floorLog2 + 1 := (zpow_lt_zpow_iff_right₀ one_lt).mp (lower.trans_lt log_upper)
  omega

end Fraction

namespace Decimal

/-- The rational number that a decimal stands for. -/
def value (d : Decimal) : ℚ :=
  d.coefficient * (10 : ℚ) ^ d.exponent

theorem value_fraction (d : Decimal) : d.fraction.value = d.value := by
  rw [fraction, Fraction.value_scale _ (by norm_num)]
  simp [Fraction.value, value]

theorem den_fraction_pos (d : Decimal) : 0 < d.fraction.den :=
  Fraction.den_scale_pos (by norm_num) (by norm_num) _

/-- What is dropped in front are zeros. -/
theorem eq_zeros_append_dropWhile (digits : List Char) :
    ∃ zeros, digits = List.replicate zeros '0' ++ digits.dropWhile (· == '0') := by
  refine ⟨(digits.takeWhile (· == '0')).length, ?_⟩
  have all_zero : digits.takeWhile (· == '0') =
      List.replicate (digits.takeWhile (· == '0')).length '0' := by
    rw [List.eq_replicate_iff]
    refine ⟨rfl, fun c c_mem => ?_⟩
    simpa using List.mem_takeWhile_imp c_mem
  rw [← all_zero, List.takeWhile_append_dropWhile]

/-- What is dropped at the end are zeros. -/
theorem eq_dropTrailingZeros_append_zeros (digits : List Char) :
    ∃ zeros, digits = dropTrailingZeros digits ++ List.replicate zeros '0' := by
  obtain ⟨zeros, split⟩ := eq_zeros_append_dropWhile digits.reverse
  refine ⟨zeros, ?_⟩
  have reversed := congrArg List.reverse split
  rwa [List.reverse_reverse, List.reverse_append, List.reverse_replicate] at reversed

theorem value_dropLeadingZeros (d : Decimal) : d.dropLeadingZeros.value = d.value := by
  obtain ⟨zeros, split⟩ := eq_zeros_append_dropWhile d.digits
  have lengths := congrArg List.length split
  rw [List.length_append, List.length_replicate] at lengths
  have same_coefficient : d.dropLeadingZeros.coefficient = d.coefficient := by
    rw [coefficient, coefficient, dropLeadingZeros]
    conv_rhs => rw [split, Nat.ofDigitChars_append, Nat.ofDigitChars_replicate_zero, Nat.mul_zero]
  have same_exponent : d.dropLeadingZeros.exponent = d.exponent := by
    simp only [exponent, dropLeadingZeros]
    omega
  rw [value, value, same_coefficient, same_exponent]

theorem value_dropTrailingZeros (digits : List Char) (point : Int) :
    value ⟨dropTrailingZeros digits, point⟩ = value ⟨digits, point⟩ := by
  obtain ⟨zeros, split⟩ := eq_dropTrailingZeros_append_zeros digits
  have lengths := congrArg List.length split
  rw [List.length_append, List.length_replicate] at lengths
  have scaled : coefficient ⟨digits, point⟩ =
      coefficient ⟨dropTrailingZeros digits, point⟩ * 10 ^ zeros := by
    simp only [coefficient]
    conv_lhs => rw [split, Nat.ofDigitChars_append, Nat.ofDigitChars_replicate_zero, Nat.mul_comm]
  have shifted : exponent ⟨dropTrailingZeros digits, point⟩ =
      zeros + exponent ⟨digits, point⟩ := by
    simp only [exponent]
    omega
  rw [value, value, scaled, shifted, zpow_add₀ (by norm_num), zpow_natCast]
  push_cast
  ring

theorem value_trim (d : Decimal) : d.trim.value = d.value := by
  rw [trim, value_dropTrailingZeros]
  exact value_dropLeadingZeros d

theorem value_ofNat (n : Nat) (exponent : Int) :
    (ofNat n exponent).value = n * (10 : ℚ) ^ exponent := by
  rw [ofNat, value_trim, value, coefficient, Nat.ofDigitChars_ten_toDigits]
  simp [Decimal.exponent]

/-- The digits of a trimmed decimal neither begin nor end with a zero. -/
structure Trimmed (d : Decimal) : Prop where
  isDigit : ∀ c ∈ d.digits, c.isDigit = true
  head_ne : d.digits.head? ≠ some '0'
  last_ne : d.digits.getLast? ≠ some '0'

theorem dropTrailingZeros_eq_self {digits : List Char} (last_ne : digits.getLast? ≠ some '0') :
    dropTrailingZeros digits = digits := by
  unfold dropTrailingZeros
  rw [List.getLast?_eq_head?_reverse] at last_ne
  cases reversed : digits.reverse with
  | nil => simpa using reversed.symm
  | cons c rest =>
    rw [reversed] at last_ne
    rw [List.dropWhile_cons_of_neg (by simpa using last_ne), ← reversed, List.reverse_reverse]

theorem getLast?_dropTrailingZeros_ne (digits : List Char) :
    (dropTrailingZeros digits).getLast? ≠ some '0' := by
  unfold dropTrailingZeros
  rw [List.getLast?_reverse]
  intro zero
  have := List.head?_dropWhile_not (· == '0') digits.reverse
  rw [zero] at this
  simp at this

theorem head?_dropWhile_zero_ne (digits : List Char) :
    (digits.dropWhile (· == '0')).head? ≠ some '0' := by
  intro zero
  have := List.head?_dropWhile_not (· == '0') digits
  rw [zero] at this
  simp at this

theorem dropWhile_zero_eq_self {digits : List Char} (head_ne : digits.head? ≠ some '0') :
    digits.dropWhile (· == '0') = digits := by
  cases digits with
  | nil => rfl
  | cons c rest => exact List.dropWhile_cons_of_neg (by simpa using head_ne)

theorem dropLeadingZeros_eq_self {d : Decimal} (head_ne : d.digits.head? ≠ some '0') :
    d.dropLeadingZeros = d := by
  rw [dropLeadingZeros, dropWhile_zero_eq_self head_ne]
  simp

namespace Trimmed

theorem trim_eq {d : Decimal} (trimmed : d.Trimmed) : d.trim = d := by
  rw [trim, dropLeadingZeros_eq_self trimmed.head_ne, dropTrailingZeros_eq_self trimmed.last_ne]

end Trimmed

theorem trimmed_trim {d : Decimal} (isDigit : ∀ c ∈ d.digits, c.isDigit = true) :
    d.trim.Trimmed := by
  obtain ⟨zeros, split⟩ := eq_dropTrailingZeros_append_zeros d.dropLeadingZeros.digits
  constructor
  · intro c c_mem
    apply isDigit
    have kept : c ∈ d.dropLeadingZeros.digits := by
      rw [split]
      exact List.mem_append_left _ c_mem
    exact (List.dropWhile_sublist _).mem kept
  · intro zero
    apply head?_dropWhile_zero_ne d.digits
    change d.dropLeadingZeros.digits.head? = some '0'
    rw [split, List.head?_append]
    simp [trim] at zero
    simp [zero]
  · exact getLast?_dropTrailingZeros_ne _

theorem trimmed_ofNat (n : Nat) (exponent : Int) : (ofNat n exponent).Trimmed :=
  trimmed_trim fun _ c_mem => Nat.isDigit_of_mem_toDigits (by norm_num) (by norm_num) c_mem

theorem length_digits_trim_le (d : Decimal) : d.trim.digits.length ≤ d.digits.length := by
  obtain ⟨zeros, split⟩ := eq_dropTrailingZeros_append_zeros d.dropLeadingZeros.digits
  have lengths := congrArg List.length split
  have leading : d.dropLeadingZeros.digits.length ≤ d.digits.length :=
    (List.dropWhile_sublist _).length_le
  rw [List.length_append] at lengths
  simp only [trim]
  omega

theorem length_digits_ofNat_le {n limit : Nat} (limit_pos : 0 < limit) (small : n < 10 ^ limit)
    (exponent : Int) : (ofNat n exponent).digits.length ≤ limit := by
  have length_le := (Nat.length_toDigits_le_iff (by norm_num) limit_pos).mpr small
  exact (length_digits_trim_le _).trans length_le

end Decimal

theorem digit_lt_ten {c : Char} (digit : c.isDigit = true) : c.toNat - '0'.toNat < 10 := by
  have bounds := Char.isDigit_iff_toNat.mp digit
  simp at bounds ⊢
  omega

/-- Digits that follow a value multiply it by a power of ten and add less than that power. -/
theorem ofDigitChars_bounds {digits : List Char} (isDigit : ∀ c ∈ digits, c.isDigit = true)
    (value : Nat) :
    value * 10 ^ digits.length ≤ Nat.ofDigitChars 10 digits value ∧
      Nat.ofDigitChars 10 digits value < (value + 1) * 10 ^ digits.length := by
  induction digits generalizing value with
  | nil => simp
  | cons c digits ih =>
    have digit : c.isDigit = true := isDigit c List.mem_cons_self
    have digit_lt := digit_lt_ten digit
    obtain ⟨lower, upper⟩ := ih (fun d d_mem => isDigit d (List.mem_cons_of_mem _ d_mem))
      (10 * value + (c.toNat - '0'.toNat))
    rw [Nat.ofDigitChars_cons, List.length_cons, Nat.pow_succ]
    constructor
    · calc value * (10 ^ digits.length * 10) = 10 * value * 10 ^ digits.length := by ring
        _ ≤ (10 * value + (c.toNat - '0'.toNat)) * 10 ^ digits.length :=
          Nat.mul_le_mul_right _ (by omega)
        _ ≤ _ := lower
    · calc _ < (10 * value + (c.toNat - '0'.toNat) + 1) * 10 ^ digits.length := upper
        _ ≤ (10 * value + 10) * 10 ^ digits.length := Nat.mul_le_mul_right _ (by omega)
        _ = (value + 1) * (10 ^ digits.length * 10) := by ring

/-- A run of digits that does not begin with a zero spells a number of as many digits. -/
theorem pow_le_ofDigitChars {digits : List Char} (isDigit : ∀ c ∈ digits, c.isDigit = true)
    (head_ne : digits.head? ≠ some '0') (nonempty : digits ≠ []) :
    10 ^ (digits.length - 1) ≤ Nat.ofDigitChars 10 digits 0 := by
  cases digits with
  | nil => exact absurd rfl nonempty
  | cons c rest =>
    have digit := Char.isDigit_iff_toNat.mp (isDigit c List.mem_cons_self)
    have not_zero : c.toNat ≠ '0'.toNat := fun same => by
      rw [Char.toNat_inj] at same
      exact head_ne (by rw [same]; rfl)
    have positive : 1 ≤ 10 * 0 + (c.toNat - '0'.toNat) := by
      simp at digit not_zero ⊢
      omega
    have lower := (ofDigitChars_bounds
      (fun d d_mem => isDigit d (List.mem_cons_of_mem _ d_mem)) (10 * 0 + (c.toNat - '0'.toNat))).1
    rw [Nat.ofDigitChars_cons, List.length_cons, Nat.add_sub_cancel]
    calc 10 ^ rest.length = 1 * 10 ^ rest.length := by ring
      _ ≤ (10 * 0 + (c.toNat - '0'.toNat)) * 10 ^ rest.length := by gcongr
      _ ≤ _ := lower

namespace Decimal
namespace Trimmed

variable {d : Decimal}

theorem coefficient_lt (trimmed : d.Trimmed) : d.coefficient < 10 ^ d.digits.length := by
  simpa [coefficient] using (ofDigitChars_bounds trimmed.isDigit 0).2

theorem le_coefficient (trimmed : d.Trimmed) (nonempty : d.digits ≠ []) :
    10 ^ (d.digits.length - 1) ≤ d.coefficient :=
  pow_le_ofDigitChars trimmed.isDigit trimmed.head_ne nonempty

/-- The place of the point is the decimal order of magnitude. -/
theorem zpow_le_value_lt (trimmed : d.Trimmed) (nonempty : d.digits ≠ []) :
    (10 : ℚ) ^ (d.point - 1) ≤ d.value ∧ d.value < (10 : ℚ) ^ d.point := by
  have length_pos : 0 < d.digits.length := List.length_pos_iff.mpr nonempty
  have ten_ne : (10 : ℚ) ≠ 0 := by norm_num
  rw [value, exponent]
  constructor
  · calc (10 : ℚ) ^ (d.point - 1)
        = (10 : ℚ) ^ (d.digits.length - 1) * (10 : ℚ) ^ (d.point - d.digits.length) := by
          rw [← zpow_natCast, ← zpow_add₀ ten_ne]
          congr 1
          omega
      _ ≤ d.coefficient * (10 : ℚ) ^ (d.point - d.digits.length) := by
          gcongr
          exact_mod_cast trimmed.le_coefficient nonempty
  · calc d.coefficient * (10 : ℚ) ^ (d.point - d.digits.length)
        < (10 : ℚ) ^ d.digits.length * (10 : ℚ) ^ (d.point - d.digits.length) := by
          gcongr
          exact_mod_cast trimmed.coefficient_lt
      _ = (10 : ℚ) ^ d.point := by
          rw [← zpow_natCast, ← zpow_add₀ ten_ne]
          congr 1
          omega

end Trimmed
end Decimal

end PolicyReview
