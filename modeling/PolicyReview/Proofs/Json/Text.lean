import PolicyReview.Json.Text
import Mathlib.Tactic.NormNum

/-!
# Literals read back

What is written for a character is read as that character, so a literal reads as its content, and
nothing below a space is written for any character.
-/

namespace PolicyReview
namespace Json

theorem byteLength_foldl (text : List Char) (bytes : Nat) :
    text.foldl (fun bytes c => bytes + c.utf8Size) bytes = bytes + byteLength text := by
  induction text generalizing bytes with
  | nil => rfl
  | cons c text ih =>
    rw [byteLength, List.foldl_cons, List.foldl_cons, ih, ih (0 + c.utf8Size)]
    omega

@[simp]
theorem byteLength_cons (c : Char) (text : List Char) :
    byteLength (c :: text) = c.utf8Size + byteLength text := by
  rw [byteLength, List.foldl_cons, byteLength_foldl, Nat.zero_add]

theorem byteLength_append (front back : List Char) :
    byteLength (front ++ back) = byteLength front + byteLength back := by
  rw [byteLength, List.foldl_append, byteLength_foldl, ← byteLength]

theorem utf8ByteSize_ofList (text : List Char) :
    (String.ofList text).utf8ByteSize = byteLength text := by
  induction text with
  | nil => rfl
  | cons c text ih =>
    rw [String.ofList_cons, String.utf8ByteSize_append, String.utf8ByteSize_singleton, ih,
      byteLength_cons]

/-- The short escape of a character stands for it. -/
theorem shortEscape?_of_escapeLetter? {c letter : Char} (short : escapeLetter? c = some letter) :
    shortEscape? letter = some c := by
  unfold escapeLetter? at short
  split_ifs at short <;> cases short <;> simp_all <;> decide

/-- Every control has a code of two hexadecimal digits. -/
theorem hexUnit_control : ∀ code < 32,
    hexUnit (['0', '0'] ++ Text.hexDigits 2 code) = .ok code := by
  decide

theorem hexUnit_append (digits text : List Char) (length_eq : digits.length = 4) :
    hexUnit (digits ++ text) = hexUnit digits := by
  have take_eq : (digits ++ text).take 4 = digits := by
    rw [← length_eq, List.take_left]
  rw [hexUnit, hexUnit, take_eq, ← length_eq, List.take_length]

/-- An escape by a code that is half of no pair is read as the character with that code. -/
theorem readEscape_unit {digits : List Char} {code : Nat} (length_eq : digits.length = 4)
    (unit_eq : hexUnit digits = .ok code) (not_low : isLowSurrogate code = false)
    (not_high : isHighSurrogate code = false) (text : List Char) :
    readEscape ('u' :: (digits ++ text)) = .ok (Char.ofNat code, 5) := by
  have not_short : shortEscape? 'u' = none := by decide
  rw [readEscape, not_short]
  simp [hexUnit_append digits text length_eq, unit_eq, not_low, not_high, bind, Except.bind]

/-- The escape of a control is read as the control. -/
theorem readEscape_control {c : Char} (control : c < ' ') (text : List Char) :
    readEscape ('u' :: (['0', '0'] ++ Text.hexDigits 2 c.toNat ++ text)) = .ok (c, 5) := by
  have code_lt : c.toNat < 32 := control
  rw [readEscape_unit (by simp [Text.hexDigits]) (hexUnit_control c.toNat code_lt),
    Char.ofNat_toNat]
  · simp [isLowSurrogate]
    omega
  · simp [isHighSurrogate]
    omega

/-- What remains of an escape that was read is passed over. -/
theorem readContent_skip (skipped text : List Char) :
    readContent skipped.length (skipped ++ text) = readContent 0 text := by
  induction skipped with
  | nil => rfl
  | cons c skipped ih => exact ih

/-- Put a character in front of the content that was read. -/
def consContent (c : Char) (read : Except Error (List Char × List Char)) :
    Except Error (List Char × List Char) :=
  match read with
  | .error error => .error error
  | .ok (content, rest) => .ok (c :: content, rest)

theorem readContent_escape {c : Char} (escape : List Char) {text : List Char}
    (read : readEscape (escape ++ text) = .ok (c, escape.length)) :
    readContent 0 ('\\' :: (escape ++ text)) = consContent c (readContent 0 text) := by
  rw [readContent, if_neg (by decide), if_pos rfl, read]
  simp only [readContent_skip]
  rfl

/-- What is written for a character is read as the character. -/
theorem readContent_escapeChar (c : Char) (text : List Char) :
    readContent 0 (escapeChar c ++ text) = consContent c (readContent 0 text) := by
  unfold escapeChar
  cases short : escapeLetter? c with
  | some letter =>
    apply readContent_escape [letter]
    simp [readEscape, shortEscape?_of_escapeLetter? short]
  | none =>
    have not_quote : c ≠ '"' := by
      rintro rfl
      cases short
    have not_backslash : c ≠ '\\' := by
      rintro rfl
      cases short
    by_cases control : c < ' '
    · have read := readEscape_control control text
      simp only [if_pos control]
      exact readContent_escape ('u' :: (['0', '0'] ++ Text.hexDigits 2 c.toNat)) read
    · simp only [if_neg control]
      rw [List.singleton_append, readContent, if_neg not_quote, if_neg not_backslash,
        if_neg control]
      rfl

theorem space_le_escapeLetter {c letter : Char} (short : escapeLetter? c = some letter) :
    ' ' ≤ letter := by
  unfold escapeLetter? at short
  split_ifs at short <;> cases short <;> decide

theorem space_le_hexDigits {code : Nat} (small : code < 32) {c : Char}
    (c_mem : c ∈ Text.hexDigits 2 code) : ' ' ≤ c := by
  have checked : ∀ code < 32, (Text.hexDigits 2 code).all (' ' ≤ ·) = true := by decide
  exact of_decide_eq_true (List.all_eq_true.mp (checked code small) c c_mem)

/-- No character is written by one below the space. -/
theorem space_le_escapeChar {c written : Char} (written_mem : written ∈ escapeChar c) :
    ' ' ≤ written := by
  unfold escapeChar at written_mem
  cases short : escapeLetter? c with
  | some letter =>
    simp only [short, List.mem_cons, List.not_mem_nil, or_false] at written_mem
    rcases written_mem with rfl | rfl
    · decide
    · exact space_le_escapeLetter short
  | none =>
    simp only [short] at written_mem
    by_cases control : c < ' '
    · rw [if_pos control, List.mem_append] at written_mem
      rcases written_mem with front | digit
      · have checked : ['\\', 'u', '0', '0'].all (' ' ≤ ·) = true := by decide
        exact of_decide_eq_true (List.all_eq_true.mp checked written front)
      · exact space_le_hexDigits control digit
    · rw [if_neg control, List.mem_singleton] at written_mem
      rw [written_mem]
      exact Char.not_lt.mp control

/-- The content of a literal is read up to its closing quote. -/
theorem readContent_write (content rest : List Char) :
    readContent 0 (content.flatMap escapeChar ++ '"' :: rest) = .ok (content, rest) := by
  induction content with
  | nil => simp [readContent]
  | cons c content ih =>
    rw [List.flatMap_cons, List.append_assoc, readContent_escapeChar, ih]
    rfl

/-- A literal is read behind its opening quote. -/
theorem readString_write (value : String) (rest : List Char) :
    readString (value.toList.flatMap escapeChar ++ '"' :: rest) = .ok (value, rest) := by
  simp [readString, readContent_write, bind, Except.bind]

end Json
end PolicyReview
