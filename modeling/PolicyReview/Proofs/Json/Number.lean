import PolicyReview.Proofs.Json.Numeral

/-!
# Numbers read back

The text of a number in front of a text that cannot continue it reads as the number.  A finite word
is written in one of three layouts of its shortest digits, and each of them spells those digits with
the same place of the point.
-/

namespace PolicyReview

namespace Decimal

open Json Json.Numeral

variable {d : Decimal} {rest : List Char}

theorem dropTrailingZeros_append_zeros {digits : List Char} (last_ne : digits.getLast? ≠ some '0')
    (zeros : Nat) : dropTrailingZeros (digits ++ List.replicate zeros '0') = digits := by
  have kept := dropTrailingZeros_eq_self last_ne
  unfold dropTrailingZeros at kept ⊢
  rw [List.reverse_append, List.reverse_replicate, List.dropWhile_append_of_pos (by simp)]
  exact kept

theorem Trimmed.head?_append_ne (trimmed : d.Trimmed) (nonempty : d.digits ≠ [])
    (more : List Char) : (d.digits ++ more).head? ≠ some '0' := by
  rw [List.head?_append_of_ne_nil _ nonempty]
  exact trimmed.head_ne

/-- The numeral is no integer, and its clipped magnitude trims to the decimal. -/
structure SpelledBy (d : Decimal) (n : Numeral) : Prop where
  notInteger : n.isInteger = false
  trim_eq : n.clippedDecimal.trim = d

/-- A numeral spells a trimmed decimal when it has the digits of the decimal between zeros. -/
theorem spelledBy_of_digits {n : Numeral} (trimmed : d.Trimmed) (nonempty : d.digits ≠ [])
    (notInteger : n.isInteger = false) (before behind : Nat)
    (digits_eq : n.whole ++ dropTrailingZeros (n.fraction.getD []) =
      List.replicate before '0' ++ (d.digits ++ List.replicate behind '0'))
    (point_eq : n.whole.length + n.exponentValue - before = d.point)
    (few : d.digits.length + behind ≤ digitLimit) : SpelledBy d n where
  notInteger := notInteger
  trim_eq := by
    have head_ne := trimmed.head?_append_ne nonempty (List.replicate behind '0')
    have leading : dropLeadingZeros ⟨n.whole ++ dropTrailingZeros (n.fraction.getD []),
        n.whole.length + n.exponentValue⟩ = ⟨d.digits ++ List.replicate behind '0', d.point⟩ := by
      rw [dropLeadingZeros]
      simp only [digits_eq]
      rw [List.dropWhile_append_of_pos (by simp), dropWhile_zero_eq_self head_ne]
      simp only [mk.injEq, true_and, List.length_append, List.length_replicate]
      omega
    have clipped : n.clippedDecimal = ⟨d.digits ++ List.replicate behind '0', d.point⟩ := by
      rw [clippedDecimal]
      simp only [leading]
      rw [clip, if_pos (by simpa using few)]
    rw [clipped, trim, dropLeadingZeros_eq_self head_ne]
    simp only [dropTrailingZeros_append_zeros trimmed.last_ne]

/-- The exponent that is written is the exponent that is read. -/
theorem exponentValue_eq (negative : Bool) (whole : List Char) (fraction : Option (List Char))
    (exponent : Int) :
    exponentValue ⟨negative, whole, fraction,
      some (decide (exponent < 0), Nat.toDigits 10 exponent.natAbs)⟩ = exponent := by
  by_cases below : exponent < 0
  · simp only [exponentValue, below, decide_true, Nat.ofDigitChars_ten_toDigits]
    omega
  · simp only [exponentValue, below, decide_false, Nat.ofDigitChars_ten_toDigits]
    omega

theorem exponentPart_exponentText (exponent : Int) (ends : EndsNumeral rest) :
    exponentPart ('e' :: (exponentText exponent ++ rest)) =
      .ok (some (decide (exponent < 0), Nat.toDigits 10 exponent.natAbs), rest) := by
  have read := exponentPart_sign (decide (exponent < 0)) (digitRun_toDigits exponent.natAbs)
    ends.noDigit
  simpa [exponentText] using read

theorem isDigit_zeros (zeros : Nat) : ∀ c ∈ List.replicate zeros '0', c.isDigit = true := by
  intro c c_mem
  rw [(List.mem_replicate.mp c_mem).2]
  decide

section Layouts

variable (trimmed : d.Trimmed) (nonempty : d.digits ≠ []) (few : d.digits.length ≤ digitLimit)
  (ends : EndsNumeral rest) (negative : Bool)
include trimmed nonempty few ends

/-- A number below one is written as a zero, a point, zeros and the digits. -/
theorem read_positionalText_small (point_le : d.point ≤ 0) :
    ∃ n, readUnsigned negative (d.positionalText ++ rest) = .ok (n, rest) ∧
      n.negative = negative ∧ SpelledBy d n := by
  set zeros := (-d.point).toNat with zeros_eq
  have fraction : DigitRun (List.replicate zeros '0' ++ d.digits) := by
    constructor
    · intro c c_mem
      rcases List.mem_append.mp c_mem with zero | digit
      · exact isDigit_zeros _ c zero
      · exact trimmed.isDigit c digit
    · simp [nonempty]
  have text_eq : d.positionalText ++ rest =
      ['0'] ++ '.' :: ((List.replicate zeros '0' ++ d.digits) ++ rest) := by
    simp [positionalText, point_le, zeros_eq]
  refine ⟨⟨negative, ['0'], some (List.replicate zeros '0' ++ d.digits), none⟩, ?_, rfl, ?_⟩
  · rw [text_eq]
    apply readUnsigned_eq
    · exact wholeDigits_append digitRun_zero (fun _ => rfl) (noDigit_cons (by decide) _)
    · exact fractionPart_point fraction ends.noDigit
    · exact exponentPart_none ends
  · have last_ne : (List.replicate zeros '0' ++ d.digits).getLast? ≠ some '0' := by
      rw [List.getLast?_append_of_ne_nil _ nonempty]
      exact trimmed.last_ne
    apply spelledBy_of_digits trimmed nonempty rfl (zeros + 1) 0
    · simp only [Option.getD_some]
      rw [dropTrailingZeros_eq_self last_ne]
      simp [List.replicate_succ]
    · simp only [exponentValue, List.length_singleton]
      omega
    · simpa using few

omit few in
/-- A whole number is written with zeros up to the point and a zero behind it. -/
theorem read_positionalText_whole (point_pos : 0 < d.point)
    (fits : d.digits.length ≤ d.point.toNat) (point_le : d.point.toNat ≤ digitLimit) :
    ∃ n, readUnsigned negative (d.positionalText ++ rest) = .ok (n, rest) ∧
      n.negative = negative ∧ SpelledBy d n := by
  set zeros := d.point.toNat - d.digits.length with zeros_eq
  have whole : DigitRun (d.digits ++ List.replicate zeros '0') := by
    constructor
    · intro c c_mem
      rcases List.mem_append.mp c_mem with digit | zero
      · exact trimmed.isDigit c digit
      · exact isDigit_zeros _ c zero
    · simp [nonempty]
  have text_eq : d.positionalText ++ rest =
      (d.digits ++ List.replicate zeros '0') ++ '.' :: (['0'] ++ rest) := by
    simp [positionalText, not_le.mpr point_pos, fits, zeros_eq]
  refine ⟨⟨negative, d.digits ++ List.replicate zeros '0', some ['0'], none⟩, ?_, rfl, ?_⟩
  · rw [text_eq]
    apply readUnsigned_eq
    · apply wholeDigits_append whole _ (noDigit_cons (by decide) _)
      exact fun zero => absurd zero (trimmed.head?_append_ne nonempty _)
    · exact fractionPart_point digitRun_zero ends.noDigit
    · exact exponentPart_none ends
  · have no_fraction : dropTrailingZeros ['0'] = [] := by decide
    apply spelledBy_of_digits trimmed nonempty rfl 0 zeros
    · simp [no_fraction]
    · simp only [exponentValue, List.length_append, List.length_replicate]
      omega
    · omega

/-- Any other positional number has its point between two digits. -/
theorem read_positionalText_mixed (point_pos : 0 < d.point)
    (exceeds : d.point.toNat < d.digits.length) :
    ∃ n, readUnsigned negative (d.positionalText ++ rest) = .ok (n, rest) ∧
      n.negative = negative ∧ SpelledBy d n := by
  set point := d.point.toNat with point_eq
  have whole : DigitRun (d.digits.take point) := by
    constructor
    · exact fun c c_mem => trimmed.isDigit c (List.mem_of_mem_take c_mem)
    · rw [← List.length_pos_iff, List.length_take]
      omega
  have fraction : DigitRun (d.digits.drop point) := by
    constructor
    · exact fun c c_mem => trimmed.isDigit c (List.mem_of_mem_drop c_mem)
    · rw [← List.length_pos_iff, List.length_drop]
      omega
  have text_eq : d.positionalText ++ rest =
      d.digits.take point ++ '.' :: (d.digits.drop point ++ rest) := by
    simp [positionalText, not_le.mpr point_pos, ← point_eq, not_le.mpr exceeds]
  refine ⟨⟨negative, d.digits.take point, some (d.digits.drop point), none⟩, ?_, rfl, ?_⟩
  · rw [text_eq]
    apply readUnsigned_eq
    · apply wholeDigits_append whole _ (noDigit_cons (by decide) _)
      rw [List.head?_take, if_neg (by omega)]
      exact fun zero => absurd zero trimmed.head_ne
    · exact fractionPart_point fraction ends.noDigit
    · exact exponentPart_none ends
  · have last_ne : (d.digits.drop point).getLast? ≠ some '0' := by
      rw [List.getLast?_drop, if_neg (by omega)]
      exact trimmed.last_ne
    apply spelledBy_of_digits trimmed nonempty rfl 0 0
    · simp only [Option.getD_some]
      rw [dropTrailingZeros_eq_self last_ne]
      simp
    · simp only [exponentValue, List.length_take]
      omega
    · simpa using few

/-- The exponent form has one digit in front of the point. -/
theorem read_scientificText :
    ∃ n, readUnsigned negative (d.scientificText ++ rest) = .ok (n, rest) ∧
      n.negative = negative ∧ SpelledBy d n := by
  cases digits_eq : d.digits with
  | nil => exact absurd digits_eq nonempty
  | cons digit more =>
    have isDigit := trimmed.isDigit
    have head_ne := trimmed.head_ne
    have last_ne := trimmed.last_ne
    rw [digits_eq] at isDigit head_ne last_ne
    have whole : DigitRun [digit] :=
      ⟨fun c c_mem => isDigit c (by simp_all), by simp⟩
    have alone : [digit].head? = some '0' → [digit] = ['0'] := fun zero => absurd zero head_ne
    have exponent_read := exponentPart_exponentText (d.point - 1) ends
    cases more with
    | nil =>
      have text_eq : d.scientificText ++ rest =
          [digit] ++ 'e' :: (exponentText (d.point - 1) ++ rest) := by
        simp [scientificText, digits_eq]
      refine ⟨⟨negative, [digit], none, some (decide (d.point - 1 < 0),
        Nat.toDigits 10 (d.point - 1).natAbs)⟩, ?_, rfl, ?_⟩
      · rw [text_eq]
        apply readUnsigned_eq (wholeDigits_append whole alone (noDigit_cons (by decide) _))
        · exact fractionPart_none (by simp)
        · exact exponent_read
      · apply spelledBy_of_digits trimmed nonempty rfl 0 0
        · simp [digits_eq, dropTrailingZeros]
        · rw [exponentValue_eq]
          simp only [List.length_singleton]
          omega
        · simpa using few
    | cons second more =>
      have fraction : DigitRun (second :: more) :=
        ⟨fun c c_mem => isDigit c (List.mem_cons_of_mem _ c_mem), by simp⟩
      have text_eq : d.scientificText ++ rest = [digit] ++ '.' ::
          ((second :: more) ++ 'e' :: (exponentText (d.point - 1) ++ rest)) := by
        simp [scientificText, digits_eq]
      refine ⟨⟨negative, [digit], some (second :: more), some (decide (d.point - 1 < 0),
        Nat.toDigits 10 (d.point - 1).natAbs)⟩, ?_, rfl, ?_⟩
      · rw [text_eq]
        apply readUnsigned_eq (wholeDigits_append whole alone (noDigit_cons (by decide) _))
        · exact fractionPart_point fraction (noDigit_cons (by decide) _)
        · exact exponent_read
      · have fraction_last : (second :: more).getLast? ≠ some '0' := by
          rwa [List.getLast?_cons_cons] at last_ne
        apply spelledBy_of_digits trimmed nonempty rfl 0 0
        · simp only [Option.getD_some]
          rw [dropTrailingZeros_eq_self fraction_last, digits_eq]
          simp
        · rw [exponentValue_eq]
          simp only [List.length_singleton]
          omega
        · simpa using few

/-- Whatever the layout, the text of a trimmed decimal spells it. -/
theorem read_text : ∃ n, readUnsigned negative (d.text .json ++ rest) = .ok (n, rest) ∧
    n.negative = negative ∧ SpelledBy d n := by
  have not_empty : d.digits.isEmpty = false := by simpa using nonempty
  unfold text
  rw [not_empty, if_neg Bool.false_ne_true]
  split
  · rename_i positional
    have point_le : d.point ≤ 16 := by
      simp only [Layout.json, Bool.and_eq_true, decide_eq_true_eq] at positional
      exact positional.2
    by_cases small : d.point ≤ 0
    · exact read_positionalText_small trimmed nonempty few ends negative small
    · by_cases fits : d.digits.length ≤ d.point.toNat
      · apply read_positionalText_whole trimmed nonempty ends negative (by omega) fits
        unfold digitLimit
        omega
      · exact read_positionalText_mixed trimmed nonempty few ends negative (by omega) (by omega)
  · exact read_scientificText trimmed nonempty few ends negative

end Layouts

end Decimal
namespace Json
namespace Number

open Numeral

variable {rest : List Char}

/-- A number whose unsigned text is read as a numeral is the number of that numeral. -/
theorem read_eq {text : List Char} (negative : Bool) {n : Numeral} {number : Number}
    (numeral_read : readUnsigned negative text = .ok (n, rest))
    (number_eq : ofNumeral? n = some number) :
    read (if negative then '-' :: text else text) = .ok (number, rest) := by
  have noSign := head?_ne_sign_of_readUnsigned numeral_read
  simp [read, read_sign negative noSign, numeral_read, number_eq, bind, Except.bind]

theorem ofInt?_natural (value : UInt64) : ofInt? value.toNat = some (natural value) := by
  have value_lt : (value.toNat : Int) < 0x10000000000000000 := by exact_mod_cast value.toNat_lt
  rw [ofInt?, if_pos (Int.natCast_nonneg _), if_pos value_lt]
  simp

theorem ofInt?_negative (value : Int64) (isNegative : value < 0) :
    ofInt? value.toInt = some (negative value isNegative) := by
  have below : value.toInt < 0 := by simpa [Int64.lt_iff_toInt_lt] using isNegative
  have least_le : -0x8000000000000000 ≤ value.toInt := value.le_toInt
  rw [ofInt?, if_neg (not_le.mpr below), if_pos least_le]
  simp [isNegative]

/-- The integer that a number is, if it is one. -/
def integer? : Number → Option Int
  | natural value => some value.toNat
  | negative value _ => some value.toInt
  | float _ _ => none

/-- The number of an integer is the integer number with its value. -/
theorem ofInt?_eq_some_iff {value : Int} {number : Number} :
    ofInt? value = some number ↔ number.integer? = some value := by
  constructor
  · intro number_eq
    rw [ofInt?] at number_eq
    split at number_eq
    · rename_i nonneg
      split at number_eq
      · rename_i value_lt
        cases number_eq
        have toNat_lt : value.toNat < 2 ^ 64 := by omega
        simp only [integer?, UInt64.toNat_ofNat_of_lt' toNat_lt, Int.toNat_of_nonneg nonneg]
      · cases number_eq
    · rename_i below
      split at number_eq
      · rename_i least_le
        dsimp only at number_eq
        split at number_eq
        · cases number_eq
          rw [integer?, Int64.toInt_ofInt_of_le least_le (by omega)]
        · cases number_eq
      · cases number_eq
  · intro integer_eq
    cases number with
    | natural word => cases integer_eq; exact ofInt?_natural word
    | negative word isNegative => cases integer_eq; exact ofInt?_negative word isNegative
    | float word isFinite => cases integer_eq

theorem read_natural (value : UInt64) (ends : EndsNumeral rest) :
    read ((natural value).text ++ rest) = .ok (natural value, rest) := by
  apply read_eq false
    (readUnsigned_integer (digitRun_toDigits value.toNat) (toDigits_zero_alone _) ends)
  simp [ofNumeral?, isInteger, wholeValue, Nat.ofDigitChars_ten_toDigits, ofInt?_natural]

theorem read_negative (value : Int64) (isNegative : value < 0) (ends : EndsNumeral rest) :
    read ((negative value isNegative).text ++ rest) = .ok (negative value isNegative, rest) := by
  have below : value.toInt < 0 := by simpa [Int64.lt_iff_toInt_lt] using isNegative
  have not_zero : value.toInt.natAbs ≠ 0 := by omega
  have magnitude : -(value.toInt.natAbs : Int) = value.toInt := by omega
  apply read_eq true
    (readUnsigned_integer (digitRun_toDigits value.toInt.natAbs) (toDigits_zero_alone _) ends)
  simp only [ofNumeral?, isInteger, wholeValue, Nat.ofDigitChars_ten_toDigits, Option.isNone_none,
    Bool.and_self, if_true, not_zero, if_false, magnitude, ofInt?_negative value isNegative,
    Option.some_or]

theorem ofNumeral?_word {n : Numeral} {x : Binary64} (finite : x.isFinite = true)
    (notInteger : n.isInteger = false)
    (reads : Binary64.ofDecimal? n.negative n.clippedDecimal = some x) :
    ofNumeral? n = some (float x finite) := by
  rw [ofNumeral?, if_neg (by simp [notInteger]), floatOfNumeral?]
  split
  · rename_i word word_read
    rw [reads] at word_read
    cases word_read
    rfl
  · rename_i none_read
    rw [reads] at none_read
    cases none_read

/-- A zero is written with a point. -/
theorem readUnsigned_zero (negative : Bool) (ends : EndsNumeral rest) :
    readUnsigned negative (['0', '.', '0'] ++ rest) =
      .ok (⟨negative, ['0'], some ['0'], none⟩, rest) := by
  have whole_read : wholeDigits (['0'] ++ '.' :: (['0'] ++ rest)) =
      .ok (['0'], '.' :: (['0'] ++ rest)) :=
    wholeDigits_append digitRun_zero (fun _ => rfl) (noDigit_cons (by decide) _)
  exact readUnsigned_eq whole_read (fractionPart_point digitRun_zero ends.noDigit)
    (exponentPart_none ends)

theorem read_float (x : Binary64) (finite : x.isFinite = true) (ends : EndsNumeral rest) :
    read ((float x finite).text ++ rest) = .ok (float x finite, rest) := by
  have text_eq : (float x finite).text ++ rest =
      if x.negative then '-' :: ((x.decimal .toEven).text .json ++ rest)
      else (x.decimal .toEven).text .json ++ rest := by
    simp only [text, Binary64.finiteText]
    split <;> rfl
  rw [text_eq]
  by_cases zero : x.code = 0
  · have decimal_eq : (x.decimal .toEven).text .json = ['0', '.', '0'] := by
      simp [Binary64.decimal, zero, Decimal.text]
    have x_eq : Binary64.zero x.negative = x := by
      cases x
      cases zero
      rfl
    rw [decimal_eq]
    apply read_eq x.negative (readUnsigned_zero x.negative ends)
    apply ofNumeral?_word finite rfl
    exact congrArg some x_eq
  · obtain ⟨trimmed, nonempty, few, reads⟩ := Binary64.spells_decimal finite zero .toEven
    obtain ⟨n, numeral_read, negative_eq, notInteger, trim_eq⟩ :=
      Decimal.read_text trimmed nonempty few ends x.negative
    apply read_eq x.negative numeral_read
    apply ofNumeral?_word finite notInteger
    rw [negative_eq, Binary64.ofDecimal?, trim_eq]
    rwa [Binary64.ofDecimal?, trimmed.trim_eq] at reads

theorem begins_of_read {text : List Char} {result : Number × List Char}
    (number_read : read text = .ok result) :
    ∃ c rest, text = c :: rest ∧ (c = '-' ∨ c.isDigit = true) := by
  cases numeral_read : Numeral.read text with
  | error error => simp [read, numeral_read, bind, Except.bind] at number_read
  | ok result => exact Numeral.begins_of_read numeral_read

/-- The text of a number reads as the number. -/
theorem read_text (number : Number) (ends : EndsNumeral rest) :
    read (number.text ++ rest) = .ok (number, rest) := by
  cases number with
  | natural value => exact read_natural value ends
  | negative value isNegative => exact read_negative value isNegative ends
  | float value isFinite => exact read_float value isFinite ends

end Number
end Json
end PolicyReview
