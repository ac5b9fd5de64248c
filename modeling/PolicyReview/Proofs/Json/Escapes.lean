import PolicyReview.Proofs.Json.Inversion
import PolicyReview.Proofs.Json.Text

/-!
# Spelled strings

A character of a string is written as it is, by the letter of a short escape, by four hexadecimal
digits of either case, or, beyond the sixteen bits of a unit, by the two halves of a surrogate pair.
Each character may be written in any of its ways, however it is written it is read as itself, and
whatever is read as a string is written in these ways.
-/

namespace PolicyReview
namespace Json

/-- The letters of the short escapes with the characters that they stand for. -/
def shortEscapes : List (Char × Char) :=
  [('"', '"'), ('\\', '\\'), ('/', '/'), ('b', '\x08'), ('f', '\x0c'), ('n', '\n'), ('r', '\r'),
    ('t', '\t')]

/-- The hexadecimal digits spell the unit, each in either case. -/
def SpellsUnit (unit : Nat) (digits : List Char) : Prop :=
  List.Forall₂ (fun written digit => written = digit ∨ written = digit.toUpper) digits
    (Text.hexDigits 4 unit)

instance (unit : Nat) (digits : List Char) : Decidable (SpellsUnit unit digits) :=
  inferInstanceAs (Decidable (List.Forall₂ _ _ _))

/-- The first half of the surrogate pair of a code point. -/
def highSurrogate (code : Nat) : Nat :=
  0xD800 + (code - 0x10000) / 0x400

/-- The second half of the surrogate pair of a code point. -/
def lowSurrogate (code : Nat) : Nat :=
  0xDC00 + (code - 0x10000) % 0x400

/-- The ways to write a character inside of a string. -/
inductive CharSpelled (c : Char) : List Char → Prop where
  /-- Quotes, backslashes and controls are never written as they are. -/
  | raw (notQuote : c ≠ '"') (notBackslash : c ≠ '\\') (notControl : ¬ c < ' ') :
    CharSpelled c [c]
  | short {letter : Char} (letter_mem : (letter, c) ∈ shortEscapes) : CharSpelled c ['\\', letter]
  | unit {digits : List Char} (small : c.toNat < 0x10000) (spells : SpellsUnit c.toNat digits) :
    CharSpelled c ('\\' :: 'u' :: digits)
  | pair {high low : List Char} (large : 0x10000 ≤ c.toNat)
    (high_spells : SpellsUnit (highSurrogate c.toNat) high)
    (low_spells : SpellsUnit (lowSurrogate c.toNat) low) :
    CharSpelled c ('\\' :: 'u' :: (high ++ '\\' :: 'u' :: low))

/-- The text spells the characters one after the other. -/
inductive ContentSpelled : List Char → List Char → Prop where
  | nil : ContentSpelled [] []
  | cons {c : Char} {content piece text : List Char} (head : CharSpelled c piece)
    (tail : ContentSpelled content text) : ContentSpelled (c :: content) (piece ++ text)

/-- A hexadecimal digit has its value in either case. -/
theorem hexValue?_hexDigit : ∀ value < 16,
    Text.hexValue? (Text.hexDigit value) = some value ∧
      Text.hexValue? (Text.hexDigit value).toUpper = some value := by
  decide

theorem hexValue?_of_written {value : Nat} (small : value < 16) {written : Char}
    (cases_eq : written = Text.hexDigit value ∨ written = (Text.hexDigit value).toUpper) :
    Text.hexValue? written = some value := by
  rcases cases_eq with rfl | rfl
  · exact (hexValue?_hexDigit value small).1
  · exact (hexValue?_hexDigit value small).2

theorem hexDigits_four (unit : Nat) :
    Text.hexDigits 4 unit = [Text.hexDigit (unit / 16 / 16 / 16 % 16),
      Text.hexDigit (unit / 16 / 16 % 16), Text.hexDigit (unit / 16 % 16),
      Text.hexDigit (unit % 16)] :=
  rfl

/-- Digits that spell a unit are read as the unit. -/
theorem hexUnit_of_spells {unit : Nat} (small : unit < 0x10000) {digits : List Char}
    (spells : SpellsUnit unit digits) : digits.length = 4 ∧ hexUnit digits = .ok unit := by
  rw [SpellsUnit, hexDigits_four] at spells
  obtain _ | ⟨a_eq, _ | ⟨b_eq, _ | ⟨c_eq, _ | ⟨d_eq, ⟨⟩⟩⟩⟩⟩ := spells
  rename_i a b c d
  have four_bytes : 4 ≤ byteLength [a, b, c, d] := by
    have := a.utf8Size_pos
    have := b.utf8Size_pos
    have := c.utf8Size_pos
    have := d.utf8Size_pos
    simp only [byteLength_cons]
    omega
  have number_eq : Text.hexNumber? [a, b, c, d] = some unit := by
    simp only [Text.hexNumber?, Text.hexNumber?.go,
      hexValue?_of_written (Nat.mod_lt _ (by norm_num)) a_eq,
      hexValue?_of_written (Nat.mod_lt _ (by norm_num)) b_eq,
      hexValue?_of_written (Nat.mod_lt _ (by norm_num)) c_eq,
      hexValue?_of_written (Nat.mod_lt _ (by norm_num)) d_eq, Option.some.injEq]
    omega
  have take_eq : [a, b, c, d].take 4 = [a, b, c, d] := rfl
  refine ⟨rfl, ?_⟩
  rw [hexUnit, take_eq, if_neg (Nat.not_lt.mpr four_bytes), number_eq]

theorem code_valid (c : Char) : c.toNat < 0xD800 ∨ 0xDFFF < c.toNat ∧ c.toNat < 0x110000 :=
  c.valid

/-- No character is half of a surrogate pair. -/
theorem not_surrogate (c : Char) :
    isLowSurrogate c.toNat = false ∧ isHighSurrogate c.toNat = false := by
  have valid := code_valid c
  simp only [isLowSurrogate, isHighSurrogate, Bool.and_eq_false_iff, decide_eq_false_iff_not]
  omega

theorem highSurrogate_lt (c : Char) : highSurrogate c.toNat < 0xDC00 := by
  have valid := code_valid c
  unfold highSurrogate
  omega

theorem lowSurrogate_lt (code : Nat) : lowSurrogate code < 0xE000 := by
  unfold lowSurrogate
  omega

/-- The halves of the pair of a character lie in their ranges and spell the character. -/
theorem surrogates {c : Char} (large : 0x10000 ≤ c.toNat) :
    isHighSurrogate (highSurrogate c.toNat) = true ∧
      isLowSurrogate (highSurrogate c.toNat) = false ∧
      isLowSurrogate (lowSurrogate c.toNat) = true ∧
      pairCode (highSurrogate c.toNat) (lowSurrogate c.toNat) = c.toNat := by
  have high_lt := highSurrogate_lt c
  have low_lt := lowSurrogate_lt c.toNat
  have le_high : 0xD800 ≤ highSurrogate c.toNat := Nat.le_add_right _ _
  have le_low : 0xDC00 ≤ lowSurrogate c.toNat := Nat.le_add_right _ _
  have code_eq : pairCode (highSurrogate c.toNat) (lowSurrogate c.toNat) = c.toNat := by
    unfold pairCode highSurrogate lowSurrogate
    omega
  simp [isHighSurrogate, isLowSurrogate, high_lt, low_lt, le_high, le_low, code_eq]

theorem hexUnit_of_highSurrogate {c : Char} {digits : List Char}
    (spells : SpellsUnit (highSurrogate c.toNat) digits) :
    digits.length = 4 ∧ hexUnit digits = .ok (highSurrogate c.toNat) :=
  hexUnit_of_spells (Nat.lt_trans (highSurrogate_lt c) (by norm_num)) spells

theorem hexUnit_of_lowSurrogate {c : Char} {digits : List Char}
    (spells : SpellsUnit (lowSurrogate c.toNat) digits) :
    digits.length = 4 ∧ hexUnit digits = .ok (lowSurrogate c.toNat) :=
  hexUnit_of_spells (Nat.lt_trans (lowSurrogate_lt c.toNat) (by norm_num)) spells

/-- The two halves of a pair are read as its character. -/
theorem readEscape_pair {c : Char} (large : 0x10000 ≤ c.toNat) {high low : List Char}
    (high_spells : SpellsUnit (highSurrogate c.toNat) high)
    (low_spells : SpellsUnit (lowSurrogate c.toNat) low) (text : List Char) :
    readEscape ('u' :: (high ++ '\\' :: 'u' :: (low ++ text))) = .ok (c, 11) := by
  obtain ⟨high_length, high_read⟩ := hexUnit_of_highSurrogate high_spells
  obtain ⟨low_length, low_read⟩ := hexUnit_of_lowSurrogate low_spells
  obtain ⟨is_high, not_low, is_low, code_eq⟩ := surrogates large
  have behind_high : (high ++ '\\' :: 'u' :: (low ++ text)).drop 4 =
      '\\' :: 'u' :: (low ++ text) := by
    rw [← high_length, List.drop_left]
  have not_short : shortEscape? 'u' = none := by decide
  rw [readEscape, not_short]
  simp [hexUnit_append high _ high_length, high_read, not_low, is_high, behind_high, pairEscape,
    hexUnit_append low _ low_length, low_read, is_low, code_eq, bind, Except.bind]

/-- However a character is written, it is read as the character. -/
theorem readContent_of_charSpelled {c : Char} {piece : List Char} (spelled : CharSpelled c piece)
    (text : List Char) : readContent 0 (piece ++ text) = consContent c (readContent 0 text) := by
  cases spelled with
  | raw notQuote notBackslash notControl =>
    rw [List.singleton_append, readContent, if_neg notQuote, if_neg notBackslash, if_neg notControl]
    rfl
  | @short letter letter_mem =>
    have stands : shortEscape? letter = some c := by
      simp only [shortEscapes, List.mem_cons, Prod.mk.injEq, List.not_mem_nil, or_false]
        at letter_mem
      rcases letter_mem with ⟨rfl, rfl⟩ | ⟨rfl, rfl⟩ | ⟨rfl, rfl⟩ | ⟨rfl, rfl⟩ | ⟨rfl, rfl⟩ |
        ⟨rfl, rfl⟩ | ⟨rfl, rfl⟩ | ⟨rfl, rfl⟩ <;> rfl
    apply readContent_escape [letter]
    simp [readEscape, stands]
  | @unit digits small spells =>
    obtain ⟨length_eq, unit_eq⟩ := hexUnit_of_spells small spells
    obtain ⟨not_low, not_high⟩ := not_surrogate c
    have read := readEscape_unit length_eq unit_eq not_low not_high text
    rw [Char.ofNat_toNat] at read
    apply readContent_escape ('u' :: digits)
    rw [List.cons_append, read, List.length_cons, length_eq]
  | @pair high low large high_spells low_spells =>
    have high_length := (hexUnit_of_highSurrogate high_spells).1
    have low_length := (hexUnit_of_lowSurrogate low_spells).1
    have read := readEscape_pair large high_spells low_spells text
    apply readContent_escape ('u' :: (high ++ '\\' :: 'u' :: low))
    simp [read, high_length, low_length]

theorem readContent_of_contentSpelled {content text : List Char}
    (spelled : ContentSpelled content text) (rest : List Char) :
    readContent 0 (text ++ '"' :: rest) = .ok (content, rest) := by
  induction spelled with
  | nil => simp [readContent]
  | cons head tail ih =>
    rw [List.append_assoc, readContent_of_charSpelled head, ih]
    rfl

/-- A string is read behind its opening quote, whatever its characters are written as. -/
theorem readString_of_contentSpelled {value : String} {text : List Char}
    (spelled : ContentSpelled value.toList text) (rest : List Char) :
    readString (text ++ '"' :: rest) = .ok (value, rest) := by
  simp [readString, readContent_of_contentSpelled spelled, bind, Except.bind]

section Inversion

/-- What is read as a hexadecimal digit is the digit of its value, in either case. -/
theorem hexValue?_ascii : ∀ code < 128, ∀ value ∈ Text.hexValue? (Char.ofNat code),
    value < 16 ∧
      (Char.ofNat code = Text.hexDigit value ∨ Char.ofNat code = (Text.hexDigit value).toUpper) ∧
      (Char.ofNat code).utf8Size = 1 := by
  decide

theorem written_of_hexValue? {c : Char} {value : Nat} (value_eq : Text.hexValue? c = some value) :
    value < 16 ∧ (c = Text.hexDigit value ∨ c = (Text.hexDigit value).toUpper) ∧
      c.utf8Size = 1 := by
  have ascii : c.toNat < 128 := by
    unfold Text.hexValue? at value_eq
    simp only [Char.le_def, UInt32.le_iff_toNat_le] at value_eq
    change c.val.toNat < 128
    split_ifs at value_eq with decimal lower upper
    · exact Nat.lt_of_le_of_lt decimal.2 (by decide)
    · exact Nat.lt_of_le_of_lt lower.2 (by decide)
    · exact Nat.lt_of_le_of_lt upper.2 (by decide)
  have checked := hexValue?_ascii c.toNat ascii value
  rw [Char.ofNat_toNat] at checked
  exact checked value_eq

theorem exists_of_hexNumber?_go {c : Char} {digits : List Char} {before unit : Nat}
    (number_eq : Text.hexNumber?.go before (c :: digits) = some unit) :
    ∃ value, Text.hexValue? c = some value ∧
      Text.hexNumber?.go (16 * before + value) digits = some unit := by
  rw [Text.hexNumber?.go] at number_eq
  split at number_eq
  · exact ⟨_, ‹_›, number_eq⟩
  · cases number_eq

/-- Hexadecimal digits take a byte each. -/
theorem byteLength_of_hexNumber?_go {digits : List Char} {before unit : Nat}
    (number_eq : Text.hexNumber?.go before digits = some unit) :
    byteLength digits = digits.length := by
  induction digits generalizing before with
  | nil => rfl
  | cons c digits ih =>
    obtain ⟨value, value_eq, number_eq⟩ := exists_of_hexNumber?_go number_eq
    rw [byteLength_cons, (written_of_hexValue? value_eq).2.2, ih number_eq, List.length_cons,
      Nat.add_comm]

/-- Four digits that are read as a unit spell it. -/
theorem spellsUnit_of_hexNumber? {digits : List Char} (length_eq : digits.length = 4) {unit : Nat}
    (number_eq : Text.hexNumber? digits = some unit) : unit < 0x10000 ∧ SpellsUnit unit digits := by
  obtain ⟨a, b, c, d, rfl⟩ := List.length_eq_four.mp length_eq
  obtain ⟨first, first_eq, number_eq⟩ := exists_of_hexNumber?_go number_eq
  obtain ⟨second, second_eq, number_eq⟩ := exists_of_hexNumber?_go number_eq
  obtain ⟨third, third_eq, number_eq⟩ := exists_of_hexNumber?_go number_eq
  obtain ⟨fourth, fourth_eq, number_eq⟩ := exists_of_hexNumber?_go number_eq
  obtain ⟨first_lt, first_written, _⟩ := written_of_hexValue? first_eq
  obtain ⟨second_lt, second_written, _⟩ := written_of_hexValue? second_eq
  obtain ⟨third_lt, third_written, _⟩ := written_of_hexValue? third_eq
  obtain ⟨fourth_lt, fourth_written, _⟩ := written_of_hexValue? fourth_eq
  have unit_eq : 16 * (16 * (16 * (16 * 0 + first) + second) + third) + fourth = unit :=
    Option.some.inj number_eq
  have digits_eq : Text.hexDigits 4 unit = [Text.hexDigit first, Text.hexDigit second,
      Text.hexDigit third, Text.hexDigit fourth] := by
    rw [hexDigits_four]
    congr <;> omega
  refine ⟨by omega, ?_⟩
  rw [SpellsUnit, digits_eq]
  exact .cons first_written (.cons second_written (.cons third_written (.cons fourth_written .nil)))

theorem exists_spellsUnit_of_hexUnit {text : List Char} {unit : Nat}
    (read : hexUnit text = .ok unit) : ∃ digits rest, text = digits ++ rest ∧ digits.length = 4 ∧
      unit < 0x10000 ∧ SpellsUnit unit digits := by
  unfold hexUnit at read
  split at read
  · cases read
  · rename_i four_bytes
    split at read
    · rename_i number_eq
      cases read
      have length_eq : (text.take 4).length = 4 := by
        have length_le := List.length_take_le 4 text
        rw [byteLength_of_hexNumber?_go number_eq] at four_bytes
        omega
      exact ⟨text.take 4, text.drop 4, (List.take_append_drop 4 text).symm, length_eq,
        spellsUnit_of_hexNumber? length_eq number_eq⟩
    · cases read

theorem mem_shortEscapes {letter c : Char} (stands : shortEscape? letter = some c) :
    (letter, c) ∈ shortEscapes := by
  unfold shortEscape? at stands
  split_ifs at stands <;> cases stands <;> simp_all [shortEscapes]

theorem toNat_ofNat {code : Nat} (valid : code < 0xD800 ∨ 0xDFFF < code ∧ code < 0x110000) :
    (Char.ofNat code).toNat = code := by
  rw [Char.ofNat, dif_pos valid]
  rfl

/-- The second half that is read behind the first half of a pair spells a character with it. -/
theorem exists_charSpelled_of_pairEscape {high : Nat} {high_digits : List Char}
    (is_high : isHighSurrogate high = true) (high_spells : SpellsUnit high high_digits)
    {text : List Char} {c : Char} {width : Nat} (read : pairEscape high text = .ok (c, width)) :
    ∃ low_digits rest, text = '\\' :: 'u' :: (low_digits ++ rest) ∧ low_digits.length = 4 ∧
      width = 6 ∧ CharSpelled c ('\\' :: 'u' :: (high_digits ++ '\\' :: 'u' :: low_digits)) := by
  unfold pairEscape at read
  split at read
  · cases read
  · cases read
  · obtain ⟨low, low_read, decoded⟩ := exists_of_bind_eq_ok read
    obtain ⟨low_digits, rest, rfl, low_length, _, low_spells⟩ :=
      exists_spellsUnit_of_hexUnit low_read
    split_ifs at decoded with is_low
    · obtain ⟨rfl, rfl⟩ := Prod.mk.inj (Except.ok.inj decoded)
      simp only [isHighSurrogate, isLowSurrogate, Bool.and_eq_true, decide_eq_true_eq]
        at is_high is_low
      have code_eq : (Char.ofNat (pairCode high low)).toNat = pairCode high low :=
        toNat_ofNat (by unfold pairCode; omega)
      refine ⟨low_digits, rest, rfl, low_length, rfl, .pair ?_ ?_ ?_⟩
      · rw [code_eq]
        unfold pairCode
        omega
      · have high_eq : highSurrogate (pairCode high low) = high := by
          unfold highSurrogate pairCode
          omega
        rwa [code_eq, high_eq]
      · have low_eq : lowSurrogate (pairCode high low) = low := by
          unfold lowSurrogate pairCode
          omega
        rwa [code_eq, low_eq]
  · cases read

/-- An escape that is read behind its backslash is one of the ways to write its character. -/
theorem exists_charSpelled_of_readEscape {text : List Char} {c : Char} {width : Nat}
    (read : readEscape text = .ok (c, width)) : ∃ escape rest, text = escape ++ rest ∧
      escape.length = width ∧ CharSpelled c ('\\' :: escape) := by
  cases text with
  | nil => cases read
  | cons letter text =>
    rw [readEscape] at read
    split at read
    · rename_i stands
      cases read
      exact ⟨[letter], text, rfl, rfl, .short (mem_shortEscapes stands)⟩
    · split_ifs at read with unit_letter
      subst unit_letter
      obtain ⟨unit, unit_read, decoded⟩ := exists_of_bind_eq_ok read
      obtain ⟨digits, rest, rfl, length_eq, unit_lt, spells⟩ :=
        exists_spellsUnit_of_hexUnit unit_read
      split_ifs at decoded with is_low is_high
      · obtain ⟨⟨_, low_width⟩, pair_read, decoded⟩ := exists_of_bind_eq_ok decoded
        cases decoded
        rw [← length_eq, List.drop_left] at pair_read
        obtain ⟨low_digits, behind, rfl, low_length, rfl, spelled⟩ :=
          exists_charSpelled_of_pairEscape is_high spells pair_read
        exact ⟨'u' :: (digits ++ '\\' :: 'u' :: low_digits), behind, by simp,
          by simp [length_eq, low_length], spelled⟩
      · cases decoded
        have valid : unit < 0xD800 ∨ 0xDFFF < unit ∧ unit < 0x110000 := by
          simp [isLowSurrogate, isHighSurrogate] at is_low is_high
          omega
        refine ⟨'u' :: digits, rest, rfl, by simp [length_eq], .unit ?_ ?_⟩ <;>
          rwa [toNat_ofNat valid]

/-- What is written for the characters that were read, behind what was passed over. -/
theorem exists_contentSpelled_of_contentRead {skipped : Nat} {text content rest : List Char}
    (read : ContentRead skipped text content rest) : ∃ passed written, passed.length = skipped ∧
      ContentSpelled content written ∧ text = passed ++ (written ++ '"' :: rest) := by
  induction read with
  | closed rest => exact ⟨[], [], rfl, .nil, rfl⟩
  | @skipped _ c _ _ _ _ ih =>
    obtain ⟨passed, written, length_eq, spelled, rfl⟩ := ih
    exact ⟨c :: passed, written, congrArg (· + 1) length_eq, spelled, rfl⟩
  | escape escape_read _ ih =>
    obtain ⟨passed, written, passed_length, spelled, rfl⟩ := ih
    obtain ⟨escape, behind, text_eq, escape_length, char_spelled⟩ :=
      exists_charSpelled_of_readEscape escape_read
    obtain ⟨rfl, -⟩ := List.append_inj text_eq (passed_length.trans escape_length.symm)
    exact ⟨[], _, rfl, .cons char_spelled spelled, by simp⟩
  | plain notQuote notBackslash visible _ ih =>
    obtain ⟨passed, written, passed_length, spelled, rfl⟩ := ih
    obtain rfl := List.length_eq_zero_iff.mp passed_length
    exact ⟨[], _, rfl, .cons (.raw notQuote notBackslash visible) spelled, rfl⟩

/-- A string that is read is written in the ways to write its characters. -/
theorem exists_contentSpelled_of_readString {text rest : List Char} {value : String}
    (read : readString text = .ok (value, rest)) :
    ∃ written, ContentSpelled value.toList written ∧ text = written ++ '"' :: rest := by
  obtain ⟨⟨content, behind⟩, content_read, read⟩ := exists_of_bind_eq_ok read
  cases read
  obtain ⟨passed, written, passed_length, spelled, text_eq⟩ :=
    exists_contentSpelled_of_contentRead (contentRead_of_readContent content_read)
  obtain rfl := List.length_eq_zero_iff.mp passed_length
  exact ⟨written, by rwa [String.toList_ofList], text_eq⟩

end Inversion

end Json
end PolicyReview
