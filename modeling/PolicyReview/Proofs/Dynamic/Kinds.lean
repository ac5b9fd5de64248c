import PolicyReview.Proofs.Json.Literal
import PolicyReview.Proofs.Structured.Readers

/-!
# Kinds of numbers

A number literal is read as a signed integer, as an unsigned integer beyond the signed range, or as
a word, and the two types of values agree on which.  A literal that is read as an integer is the
text of that integer; the text of a word shows a point or an exponent, so it is read as a word.
-/

namespace PolicyReview

namespace Decimal

theorem point_or_exponent_mem_text (layout : Layout) {d : Decimal} (nonempty : d.digits ≠ []) :
    '.' ∈ d.text layout ∨ 'e' ∈ d.text layout := by
  have not_empty : d.digits.isEmpty = false := by simpa using nonempty
  rw [text, not_empty, if_neg Bool.false_ne_true]
  split
  · left
    unfold positionalText
    split
    · simp
    · dsimp only
      split <;> simp
  · right
    unfold scientificText
    split
    · rename_i empty
      exact absurd empty nonempty
    · simp
    · simp

end Decimal

namespace Json

namespace Number

/-- The text of an integer is its sign and its digits. -/
theorem text_of_integer? {number : Number} {value : Int}
    (integer_eq : number.integer? = some value) :
    number.text = if value < 0 then '-' :: Nat.toDigits 10 value.natAbs
      else Nat.toDigits 10 value.natAbs := by
  cases number with
  | natural word =>
    cases integer_eq
    simp [text]
  | negative word isNegative =>
    cases integer_eq
    have below : word.toInt < 0 := by simpa [Int64.lt_iff_toInt_lt] using isNegative
    rw [text, if_pos below]
  | float word isFinite => cases integer_eq

/-- The text of a word shows a point or an exponent. -/
theorem point_or_exponent_mem_text (word : Binary64) (isFinite : word.isFinite = true) :
    '.' ∈ (float word isFinite).text ∨ 'e' ∈ (float word isFinite).text := by
  have digits : '.' ∈ (word.decimal .toEven).text .json ∨
      'e' ∈ (word.decimal .toEven).text .json := by
    by_cases empty : (word.decimal .toEven).digits = []
    · simp [Decimal.text, empty]
    · exact Decimal.point_or_exponent_mem_text .json empty
  simp only [text, Binary64.finiteText]
  split
  · exact digits.imp (List.mem_cons_of_mem _) (List.mem_cons_of_mem _)
  · exact digits

end Number

namespace NumberLiteral

/-- The literal has neither a point nor an exponent. -/
def IsInteger (literal : NumberLiteral) : Prop :=
  literal.fraction = none ∧ literal.exponent = none

/-- The integer that the whole digits spell with the sign. -/
def integer (literal : NumberLiteral) : Int :=
  if literal.negative then -(Nat.ofDigitChars 10 literal.whole 0 : Int)
  else Nat.ofDigitChars 10 literal.whole 0

variable {literal : NumberLiteral}

theorem isInteger_numeral : literal.numeral.isInteger = true ↔ literal.IsInteger := by
  simp [numeral, Numeral.isInteger, IsInteger]

theorem chars_eq (isInteger : literal.IsInteger) :
    literal.chars = if literal.negative then '-' :: literal.whole else literal.whole := by
  rw [chars, unsigned, isInteger.1, isInteger.2, fractionChars, exponentChars, List.append_nil,
    List.append_nil]

theorem text_eq_negativeZero_iff (isInteger : literal.IsInteger) :
    literal.text = "-0" ↔ literal.negative = true ∧ Nat.ofDigitChars 10 literal.whole 0 = 0 := by
  have digits := literal.whole_run.toDigits_ofDigitChars literal.zero_alone
  rw [text, show "-0" = String.ofList ['-', '0'] from rfl, String.ofList_inj, chars_eq isInteger]
  constructor
  · intro zero
    cases sign : literal.negative with
    | true =>
      rw [sign, if_pos rfl] at zero
      have whole_eq : literal.whole = ['0'] := List.tail_eq_of_cons_eq zero
      exact ⟨rfl, by rw [whole_eq]; rfl⟩
    | false =>
      rw [sign, if_neg Bool.false_ne_true] at zero
      have sign_digit := literal.whole_run.isDigit '-' (by simp [zero])
      cases sign_digit
  · rintro ⟨negative, zero⟩
    rw [zero] at digits
    rw [negative, if_pos rfl, ← digits]
    rfl

/-- Without point and exponent a literal is its integer where that fits; the negative zero is
no integer. -/
theorem ofNumeral?_of_isInteger (isInteger : literal.IsInteger) :
    Number.ofNumeral? literal.numeral =
      if literal.text = "-0" then Number.floatOfNumeral? literal.numeral
      else (Number.ofInt? literal.integer).or (Number.floatOfNumeral? literal.numeral) := by
  rw [Number.ofNumeral?, if_pos (isInteger_numeral.mpr isInteger)]
  simp only [text_eq_negativeZero_iff isInteger, integer]
  rw [show literal.numeral.negative = literal.negative from rfl,
    show literal.numeral.wholeValue = Nat.ofDigitChars 10 literal.whole 0 from rfl]
  cases literal.negative <;> simp

theorem number_of_integer (isInteger : literal.IsInteger) (notZero : literal.text ≠ "-0")
    {number : Number} (number_eq : Number.ofInt? literal.integer = some number) :
    literal.number = .ok number := by
  rw [NumberLiteral.number, ofNumeral?_of_isInteger isInteger, if_neg notZero, number_eq]
  rfl

/-- Every other literal is the word nearest to it, unless it is too large for a word. -/
theorem ofNumeral?_of_word (isWord : ¬ literal.IsInteger ∨ literal.text = "-0" ∨
      literal.integer < -0x8000000000000000 ∨ 0x10000000000000000 ≤ literal.integer) :
    Number.ofNumeral? literal.numeral = Number.floatOfNumeral? literal.numeral := by
  by_cases isInteger : literal.IsInteger
  · rw [ofNumeral?_of_isInteger isInteger]
    rcases isWord with notInteger | negativeZero | outside
    · exact absurd isInteger notInteger
    · rw [if_pos negativeZero]
    · have no_integer : Number.ofInt? literal.integer = none := by
        rw [Number.ofInt?]
        split
        · rw [if_neg (by omega)]
        · rw [if_neg (by omega)]
      rw [no_integer, Option.none_or, ite_self]
  · rw [Number.ofNumeral?, if_neg (isInteger_numeral.not.mpr isInteger)]

/-- The text of the integer of a literal is the literal, digit for digit. -/
theorem text_number (isInteger : literal.IsInteger) (notZero : literal.text ≠ "-0")
    {number : Number} (integer_eq : number.integer? = some literal.integer) :
    number.text = literal.chars := by
  have not_negativeZero := (text_eq_negativeZero_iff isInteger).not.mp notZero
  have digits := literal.whole_run.toDigits_ofDigitChars literal.zero_alone
  rw [Number.text_of_integer? integer_eq, chars_eq isInteger, integer]
  cases sign : literal.negative with
  | true =>
    have positive : Nat.ofDigitChars 10 literal.whole 0 ≠ 0 := fun zero =>
      not_negativeZero ⟨sign, zero⟩
    rw [if_pos rfl, if_pos rfl, if_pos (by omega), Int.natAbs_neg, Int.natAbs_natCast, digits]
  | false =>
    rw [if_neg Bool.false_ne_true, if_neg Bool.false_ne_true, if_neg (by omega),
      Int.natAbs_natCast, digits]

/-- A reader takes the literal with the given result, as a whole text and wherever else it stands:
in front of any text that a number cannot go on with, which is left over. -/
def ReadAs {α : Type} (literal : NumberLiteral) (reader : Nat → Reader α)
    (result : Except Error α) : Prop :=
  readAll (reader nestingLimit) literal.text = result ∧
    ∀ budget rest, EndsNumeral rest →
      reader budget (literal.chars ++ rest) = result.map (·, rest)

theorem readAs_readValue {α : Type} (build : Assembly α) (literal : NumberLiteral) :
    literal.ReadAs (readValue build)
      (literal.number.map fun number => build.scalar (.number number)) := by
  refine ⟨literal.readText_text build, fun budget rest ends => ?_⟩
  rw [literal.readValue_append build budget ends]
  cases literal.number <;> rfl

/-- Both types of values are read as the number of the literal, or both are refused. -/
theorem readAs_of_number {result : Except Error Number} (number_eq : literal.number = result) :
    literal.ReadAs Dynamic.read (result.map Dynamic.ofNumber) ∧
      literal.ReadAs Structured.read (result.map Structured.number) := by
  have dynamic_read := literal.readAs_readValue Dynamic.assembly
  have structured_read := literal.readAs_readValue Structured.assembly
  rw [number_eq] at dynamic_read structured_read
  exact ⟨dynamic_read, structured_read⟩

/-- Both types of values are written as the number. -/
theorem texts_ofNumber (number : Number) :
    (Dynamic.ofNumber number).text = .ok (String.ofList number.text) ∧
      (Structured.number number).text = String.ofList number.text := by
  have text_eq : (Structured.number number).text = String.ofList number.text := by
    simp [Structured.text, Structured.document, Document.text, Document.write, Scalar.write]
  exact ⟨by rw [Structured.text_of_image? (Structured.image?_ofNumber number), text_eq], text_eq⟩

/-- The literal is read as the value and as the number, which is its integer, and both are written
as the literal, digit for digit. -/
structure KeptAs (literal : NumberLiteral) (value : Dynamic) (number : Number) : Prop where
  integer_eq : number.integer? = some literal.integer
  dynamic_read : literal.ReadAs Dynamic.read (.ok value)
  structured_read : literal.ReadAs Structured.read (.ok (.number number))
  dynamic_text : value.text = .ok literal.text
  structured_text : (Structured.number number).text = literal.text

theorem keptAs_of_integer (isInteger : literal.IsInteger) (notZero : literal.text ≠ "-0")
    {number : Number} (integer_eq : number.integer? = some literal.integer) :
    literal.KeptAs (Dynamic.ofNumber number) number := by
  obtain ⟨dynamic_read, structured_read⟩ := readAs_of_number
    (number_of_integer isInteger notZero (Number.ofInt?_eq_some_iff.mpr integer_eq))
  obtain ⟨dynamic_text, structured_text⟩ := texts_ofNumber number
  rw [text_number isInteger notZero integer_eq] at dynamic_text structured_text
  exact ⟨integer_eq, dynamic_read, structured_read, dynamic_text, structured_text⟩

/-- In the signed range a literal is a signed integer. -/
theorem exists_keptAs_int (isInteger : literal.IsInteger) (notZero : literal.text ≠ "-0")
    (least_le : -0x8000000000000000 ≤ literal.integer)
    (le_greatest : literal.integer ≤ 0x7FFFFFFFFFFFFFFF) :
    ∃ value number, value.toInt = literal.integer ∧ literal.KeptAs (.int value) number := by
  have toInt_eq : (Int64.ofInt literal.integer).toInt = literal.integer :=
    Int64.toInt_ofInt_of_le (by omega) (by omega)
  have integer_eq := Number.ofInt?_eq_some_iff.mp
    (Structured.ofInt?_toInt (Int64.ofInt literal.integer))
  rw [toInt_eq] at integer_eq
  have kept := keptAs_of_integer isInteger notZero integer_eq
  rw [Dynamic.ofNumber_numberOfInt] at kept
  exact ⟨_, _, toInt_eq, kept⟩

/-- Beyond the signed range a literal is an unsigned integer. -/
theorem exists_keptAs_uint (isInteger : literal.IsInteger)
    (exceeds : 0x8000000000000000 ≤ literal.integer)
    (le_greatest : literal.integer ≤ 0xFFFFFFFFFFFFFFFF) :
    ∃ value number, value.toNat = literal.integer ∧ literal.KeptAs (.uint value) number := by
  have notZero : literal.text ≠ "-0" := fun zero_text => by
    obtain ⟨negative, zero⟩ := (text_eq_negativeZero_iff isInteger).mp zero_text
    rw [integer, if_pos negative, zero] at exceeds
    norm_num at exceeds
  have toNat_lt : literal.integer.toNat < 2 ^ 64 := by omega
  have toNat_eq : ((UInt64.ofNat literal.integer.toNat).toNat : Int) = literal.integer := by
    rw [UInt64.toNat_ofNat_of_lt' toNat_lt, Int.toNat_of_nonneg (by omega)]
  have integer_eq : (Number.natural (UInt64.ofNat literal.integer.toNat)).integer? =
      some literal.integer := congrArg some toNat_eq
  have kept := keptAs_of_integer isInteger notZero integer_eq
  rw [Dynamic.ofNumber, Dynamic.ofUInt64, if_neg (by omega)] at kept
  exact ⟨_, _, toNat_eq, kept⟩

/-- A literal that is no integer of sixty-four bits is the word nearest to it, or an error. -/
theorem readAs_word_or_error (isWord : ¬ literal.IsInteger ∨ literal.text = "-0" ∨
      literal.integer < -0x8000000000000000 ∨ 0x10000000000000000 ≤ literal.integer) :
    (∃ word isFinite,
      Binary64.ofDecimal? literal.negative literal.numeral.clippedDecimal = some word ∧
      literal.ReadAs Dynamic.read (.ok (.float word)) ∧
      literal.ReadAs Structured.read (.ok (.number (.float word isFinite)))) ∨
    (Binary64.ofDecimal? literal.negative literal.numeral.clippedDecimal = none ∧
      literal.ReadAs Dynamic.read (.error .numberOutOfRange) ∧
      literal.ReadAs Structured.read (.error .numberOutOfRange)) := by
  have number_eq := ofNumeral?_of_word isWord
  rw [Number.floatOfNumeral?] at number_eq
  split at number_eq
  · rename_i word nearest
    have found : literal.number = .ok (.float word (Binary64.isFinite_of_ofDecimal? nearest)) := by
      rw [NumberLiteral.number, number_eq]
    exact .inl ⟨word, _, nearest, readAs_of_number found⟩
  · rename_i too_large
    have refused : literal.number = .error .numberOutOfRange := by
      rw [NumberLiteral.number, number_eq]
    exact .inr ⟨too_large, readAs_of_number refused⟩

end NumberLiteral
end Json

open Json (NumberLiteral)

/-- The text of a word shows a point or an exponent and is read as the word. -/
theorem float_text_round_trip (word : Binary64) (isFinite : word.isFinite = true) :
    ∃ text, (Dynamic.float word).text = .ok text ∧
      (Structured.number (.float word isFinite)).text = text ∧
      ('.' ∈ text.toList ∨ 'e' ∈ text.toList) ∧
      Dynamic.ofText text = .ok (.float word) ∧
      Structured.ofText text = .ok (.number (.float word isFinite)) := by
  obtain ⟨dynamic_text, structured_text⟩ :=
    NumberLiteral.texts_ofNumber (.float word isFinite)
  refine ⟨_, dynamic_text, structured_text, ?_, ?_⟩
  · rw [String.toList_ofList]
    exact Json.Number.point_or_exponent_mem_text word isFinite
  · rw [← structured_text]
    exact ⟨Json.Document.readText_text Dynamic.assembly (.scalar (.number (.float word isFinite))),
      Json.Document.readText_text Structured.assembly (.scalar (.number (.float word isFinite)))⟩

/-- Numbers keep their kind.  An integer literal is a signed integer, an unsigned integer beyond the
signed range, or, as the negative zero and beyond both ranges, a word or an error; the integers are
written as their literals.  With a point or an exponent a literal is a word or an error, and every
word is written with one of them. -/
theorem number_kinds_apart :
    (∀ literal : NumberLiteral, literal.IsInteger → literal.text ≠ "-0" →
      -0x8000000000000000 ≤ literal.integer → literal.integer ≤ 0x7FFFFFFFFFFFFFFF →
      ∃ value number, value.toInt = literal.integer ∧ literal.KeptAs (.int value) number) ∧
    (∀ literal : NumberLiteral, literal.IsInteger →
      0x8000000000000000 ≤ literal.integer → literal.integer ≤ 0xFFFFFFFFFFFFFFFF →
      ∃ value number, value.toNat = literal.integer ∧ literal.KeptAs (.uint value) number) ∧
    (∀ literal : NumberLiteral, (¬ literal.IsInteger ∨ literal.text = "-0" ∨
        literal.integer < -0x8000000000000000 ∨ 0x10000000000000000 ≤ literal.integer) →
      (∃ word isFinite,
        Binary64.ofDecimal? literal.negative literal.numeral.clippedDecimal = some word ∧
        literal.ReadAs Dynamic.read (.ok (.float word)) ∧
        literal.ReadAs Structured.read (.ok (.number (.float word isFinite)))) ∨
      (Binary64.ofDecimal? literal.negative literal.numeral.clippedDecimal = none ∧
        literal.ReadAs Dynamic.read (.error .numberOutOfRange) ∧
        literal.ReadAs Structured.read (.error .numberOutOfRange))) ∧
    ∀ word : Binary64, ∀ isFinite : word.isFinite = true, ∃ text,
      (Dynamic.float word).text = .ok text ∧
      (Structured.number (.float word isFinite)).text = text ∧
      ('.' ∈ text.toList ∨ 'e' ∈ text.toList) ∧
      Dynamic.ofText text = .ok (.float word) ∧
      Structured.ofText text = .ok (.number (.float word isFinite)) :=
  ⟨fun _ => NumberLiteral.exists_keptAs_int, fun _ => NumberLiteral.exists_keptAs_uint,
    fun _ => NumberLiteral.readAs_word_or_error, float_text_round_trip⟩

/-- The least signed and the greatest unsigned integer are kept, and the negative zero is a word. -/
theorem number_kinds_apart_at_limits :
    (∃ value, value.toInt = -0x8000000000000000 ∧
      Dynamic.ofText "-9223372036854775808" = .ok (.int value) ∧
      (Dynamic.int value).text = .ok "-9223372036854775808") ∧
    (∃ value, value.toNat = 0xFFFFFFFFFFFFFFFF ∧
      Dynamic.ofText "18446744073709551615" = .ok (.uint value) ∧
      (Dynamic.uint value).text = .ok "18446744073709551615") ∧
    Dynamic.ofText "-0" = .ok (.float (Binary64.zero true)) := by
  obtain ⟨signed, unsigned, words, _⟩ := number_kinds_apart
  refine ⟨?_, ?_, ?_⟩
  · obtain ⟨value, _, toInt_eq, kept⟩ :=
      signed ⟨true, Nat.toDigits 10 9223372036854775808, none, none, Json.digitRun_toDigits _,
        Json.toDigits_zero_alone _, by simp⟩ ⟨rfl, rfl⟩ (by decide +kernel) (by decide +kernel)
        (by decide +kernel)
    exact ⟨value, toInt_eq, kept.dynamic_read.1, kept.dynamic_text⟩
  · obtain ⟨value, _, toNat_eq, kept⟩ :=
      unsigned ⟨false, Nat.toDigits 10 18446744073709551615, none, none, Json.digitRun_toDigits _,
        Json.toDigits_zero_alone _, by simp⟩ ⟨rfl, rfl⟩ (by decide +kernel) (by decide +kernel)
    exact ⟨value, Int.ofNat.inj toNat_eq, kept.dynamic_read.1, kept.dynamic_text⟩
  · obtain ⟨word, _, nearest, ⟨read, _⟩, _⟩ | ⟨too_large, _⟩ :=
      words ⟨true, ['0'], none, none, Json.digitRun_zero, fun _ => rfl, by simp⟩ (.inr (.inl rfl))
    · obtain rfl : Binary64.zero true = word := Option.some.inj nearest
      exact read
    · cases too_large

end PolicyReview
