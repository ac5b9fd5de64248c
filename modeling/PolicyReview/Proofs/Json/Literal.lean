import PolicyReview.Proofs.Json.Reader
import PolicyReview.Proofs.Outcome

/-!
# Number literals

A number literal is a numeral as the grammar has it: an optional minus, whole digits of which the
first is zero only where it stands alone, and optional parts behind a point and behind the letter of
the exponent.  Every reader takes a literal as a whole, as the number that its parts spell or with
the error that no number is that large, and whatever is read as a number is a literal.
-/

namespace PolicyReview

namespace Json

/-- The exponent of a number literal. -/
structure LiteralExponent where
  /-- The letter is a capital. -/
  capital : Bool
  /-- The sign, where one is written: whether it is a minus. -/
  sign : Option Bool
  digits : List Char
  digits_run : DigitRun digits

namespace LiteralExponent

def letter (exponent : LiteralExponent) : Char :=
  if exponent.capital then 'E' else 'e'

/-- The sign and the digits as they are spelled. -/
def signedDigits (exponent : LiteralExponent) : List Char :=
  match exponent.sign with
  | none => exponent.digits
  | some true => '-' :: exponent.digits
  | some false => '+' :: exponent.digits

/-- The sign and the digits as they are read: without sign an exponent is not negative. -/
def parts (exponent : LiteralExponent) : Bool × List Char :=
  (exponent.sign.getD false, exponent.digits)

theorem letter_eq (exponent : LiteralExponent) :
    exponent.letter = 'e' ∨ exponent.letter = 'E' := by
  unfold letter
  split
  · exact .inr rfl
  · exact .inl rfl

theorem exponentDigits_append (exponent : LiteralExponent) {rest : List Char}
    (ends : NoDigit rest) :
    Numeral.exponentDigits (exponent.signedDigits ++ rest) = .ok (exponent.parts, rest) := by
  obtain ⟨capital, sign, digits, run⟩ := exponent
  have digits_read := Numeral.digits_append run ends
  match sign with
  | some true =>
    simp [signedDigits, parts, Numeral.exponentDigits, digits_read, bind, Except.bind]
  | some false =>
    simp [signedDigits, parts, Numeral.exponentDigits, digits_read, bind, Except.bind]
  | none =>
    -- Without a sign the first character is a digit, so it is read as no sign.
    cases digits with
    | nil => exact absurd rfl run.nonempty
    | cons c digits =>
      have digit := run.isDigit c List.mem_cons_self
      simp only [signedDigits]
      unfold Numeral.exponentDigits
      split
      · rename_i same
        cases same
        cases digit
      · rename_i same
        cases same
        cases digit
      · rw [digits_read]
        rfl

/-- What is read behind the letter of an exponent are its sign and its digits. -/
theorem exists_of_exponentDigits (capital : Bool) {text rest : List Char}
    {parts : Bool × List Char} (read : Numeral.exponentDigits text = .ok (parts, rest)) :
    ∃ exponent : LiteralExponent, exponent.capital = capital ∧ exponent.parts = parts ∧
      text = exponent.signedDigits ++ rest := by
  unfold Numeral.exponentDigits at read
  split at read <;> obtain ⟨⟨run, behind⟩, digits_read, read⟩ := exists_of_bind_eq_ok read <;>
    cases read <;> obtain ⟨digitRun, rfl⟩ := Numeral.digitRun_of_digits digits_read
  · exact ⟨⟨capital, some true, run, digitRun⟩, rfl, rfl, rfl⟩
  · exact ⟨⟨capital, some false, run, digitRun⟩, rfl, rfl, rfl⟩
  · exact ⟨⟨capital, none, run, digitRun⟩, rfl, rfl, rfl⟩

theorem exists_capital {c : Char} (isLetter : c = 'e' ∨ c = 'E') :
    ∃ capital, ∀ exponent : LiteralExponent, exponent.capital = capital → exponent.letter = c := by
  rcases isLetter with rfl | rfl
  · exact ⟨false, fun exponent lower => by rw [letter, lower, if_neg Bool.false_ne_true]⟩
  · exact ⟨true, fun exponent upper => by rw [letter, if_pos upper]⟩

end LiteralExponent

/-- A number literal. -/
structure NumberLiteral where
  /-- A minus stands in front. -/
  negative : Bool
  whole : List Char
  /-- Digits behind a point, if there is one. -/
  fraction : Option (List Char)
  exponent : Option LiteralExponent
  whole_run : DigitRun whole
  zero_alone : whole.head? = some '0' → whole = ['0']
  fraction_run : ∀ run ∈ fraction, DigitRun run

namespace NumberLiteral

def fractionChars : Option (List Char) → List Char
  | none => []
  | some run => '.' :: run

def exponentChars : Option LiteralExponent → List Char
  | none => []
  | some exponent => exponent.letter :: exponent.signedDigits

/-- A literal without its minus, as it is spelled. -/
def unsigned (literal : NumberLiteral) : List Char :=
  literal.whole ++ (fractionChars literal.fraction ++ exponentChars literal.exponent)

/-- A literal as it is spelled. -/
def chars (literal : NumberLiteral) : List Char :=
  if literal.negative then '-' :: literal.unsigned else literal.unsigned

def text (literal : NumberLiteral) : String :=
  String.ofList literal.chars

/-- A literal as it is read. -/
def numeral (literal : NumberLiteral) : Numeral :=
  ⟨literal.negative, literal.whole, literal.fraction,
    literal.exponent.map LiteralExponent.parts⟩

/-- The number that a literal spells, or the error where it is too large. -/
def number (literal : NumberLiteral) : Except Error Number :=
  match Number.ofNumeral? literal.numeral with
  | some number => .ok number
  | none => .error .numberOutOfRange

section Reading

variable {rest : List Char}

theorem exponentPart_append (exponent : Option LiteralExponent) (ends : EndsNumeral rest) :
    Numeral.exponentPart (exponentChars exponent ++ rest) =
      .ok (exponent.map LiteralExponent.parts, rest) := by
  cases exponent with
  | none => exact Numeral.exponentPart_none ends
  | some exponent =>
    simp only [exponentChars, List.cons_append, Numeral.exponentPart, if_pos exponent.letter_eq]
    rw [exponent.exponentDigits_append ends.noDigit]
    rfl

theorem exists_exponent_of_exponentPart {text : List Char} {parts : Option (Bool × List Char)}
    (read : Numeral.exponentPart text = .ok (parts, rest)) :
    ∃ exponent : Option LiteralExponent, exponent.map LiteralExponent.parts = parts ∧
      text = exponentChars exponent ++ rest := by
  unfold Numeral.exponentPart at read
  split at read
  · cases read
    exact ⟨none, rfl, rfl⟩
  · split_ifs at read with letter
    · obtain ⟨⟨parts, behind⟩, digits_read, read⟩ := exists_of_bind_eq_ok read
      cases read
      obtain ⟨capital, letter_eq⟩ := LiteralExponent.exists_capital letter
      obtain ⟨exponent, capital_eq, rfl, rfl⟩ :=
        LiteralExponent.exists_of_exponentDigits capital digits_read
      exact ⟨some exponent, rfl, by rw [exponentChars, letter_eq exponent capital_eq]; rfl⟩
    · cases read
      exact ⟨none, rfl, rfl⟩

/-- An exponent ends the digits in front of it and is no fraction. -/
theorem exponentChars_ends (exponent : Option LiteralExponent) (ends : EndsNumeral rest) :
    NoDigit (exponentChars exponent ++ rest) ∧
      (exponentChars exponent ++ rest).head? ≠ some '.' := by
  cases exponent with
  | none => exact ⟨ends.noDigit, fun point => (ends _ point).2.1 rfl⟩
  | some exponent =>
    rw [exponentChars, List.cons_append]
    rcases exponent.letter_eq with lower | capital
    · rw [lower]
      exact ⟨noDigit_cons (by decide) _, by simp⟩
    · rw [capital]
      exact ⟨noDigit_cons (by decide) _, by simp⟩

theorem fractionPart_append {fraction : Option (List Char)}
    (fraction_run : ∀ run ∈ fraction, DigitRun run) (ends : NoDigit rest)
    (noPoint : rest.head? ≠ some '.') :
    Numeral.fractionPart (fractionChars fraction ++ rest) = .ok (fraction, rest) := by
  cases fraction with
  | none => exact Numeral.fractionPart_none noPoint
  | some run => exact Numeral.fractionPart_point (fraction_run run rfl) ends

theorem exists_fraction_of_fractionPart {text : List Char} {fraction : Option (List Char)}
    (read : Numeral.fractionPart text = .ok (fraction, rest)) :
    (∀ run ∈ fraction, DigitRun run) ∧ text = fractionChars fraction ++ rest := by
  unfold Numeral.fractionPart at read
  split at read
  · obtain ⟨⟨run, behind⟩, digits_read, read⟩ := exists_of_bind_eq_ok read
    cases read
    obtain ⟨digitRun, rfl⟩ := Numeral.digitRun_of_digits digits_read
    exact ⟨fun _ same => Option.some.inj same ▸ digitRun, rfl⟩
  · cases read
    exact ⟨fun _ none_mem => absurd none_mem (Option.not_mem_none _), rfl⟩

theorem noDigit_fractionChars (fraction : Option (List Char)) (ends : NoDigit rest) :
    NoDigit (fractionChars fraction ++ rest) := by
  cases fraction with
  | none => exact ends
  | some run => exact noDigit_cons (by decide) _

variable (literal : NumberLiteral)

theorem readUnsigned_append (ends : EndsNumeral rest) :
    Numeral.readUnsigned literal.negative (literal.unsigned ++ rest) =
      .ok (literal.numeral, rest) := by
  obtain ⟨noDigit, noPoint⟩ := exponentChars_ends literal.exponent ends
  rw [unsigned, List.append_assoc, List.append_assoc]
  apply Numeral.readUnsigned_eq
  · exact Numeral.wholeDigits_append literal.whole_run literal.zero_alone
      (noDigit_fractionChars literal.fraction noDigit)
  · exact fractionPart_append literal.fraction_run noDigit noPoint
  · exact exponentPart_append literal.exponent ends

/-- A literal begins with its minus or a digit. -/
theorem begins : ∃ c more, literal.chars = c :: more ∧ (c = '-' ∨ c.isDigit = true) := by
  have numeral_read := literal.readUnsigned_append endsNumeral_nil
  rw [List.append_nil] at numeral_read
  unfold chars
  split
  · exact ⟨'-', _, rfl, .inl rfl⟩
  · obtain ⟨c, more, unsigned_eq, digit⟩ := Numeral.exists_digit_of_readUnsigned numeral_read
    exact ⟨c, more, unsigned_eq, .inr digit⟩

/-- A literal is read as a number up to its end. -/
theorem number_read (ends : EndsNumeral rest) :
    Number.read (literal.chars ++ rest) = literal.number.map (·, rest) := by
  have numeral_read := literal.readUnsigned_append ends
  have sign_read := Numeral.read_sign literal.negative
    (Numeral.head?_ne_sign_of_readUnsigned numeral_read)
  have chars_eq : literal.chars ++ rest = if literal.negative then
      '-' :: (literal.unsigned ++ rest) else literal.unsigned ++ rest := by
    unfold chars
    split <;> rfl
  simp only [Number.read, chars_eq, sign_read, numeral_read, bind, Except.bind, number]
  cases Number.ofNumeral? literal.numeral <;> rfl

/-- Every reader of values takes a literal up to its end, as the number that it spells. -/
theorem readValue_append {α : Type} (build : Assembly α) (budget : Nat) (ends : EndsNumeral rest) :
    readValue build budget (literal.chars ++ rest) =
      literal.number.map fun number => (build.scalar (.number number), rest) := by
  obtain ⟨c, more, chars_eq, numeral⟩ := literal.begins
  have number_read := literal.number_read ends
  rw [chars_eq, List.cons_append] at number_read ⊢
  have other {letter : Char} := ne_of_numeral letter numeral
  have read (nested : Option (Reader α)) : readValueWith build nested (c :: (more ++ rest)) =
      literal.number.map fun number => (build.scalar (.number number), rest) := by
    unfold readValueWith
    rw [skipSpace_cons (isSpace_of_numeral numeral)]
    split
    · rename_i opened
      cases opened
      exact absurd rfl (other (by decide) (by decide))
    · rename_i opened
      cases opened
      exact absurd rfl (other (by decide) (by decide))
    · rw [Scalar.read_of_numeral numeral, number_read]
      cases literal.number <;> rfl
  cases budget <;> exact read _

/-- What is read as a numeral without sign is a literal without its minus. -/
theorem exists_of_readUnsigned {negative : Bool} {text : List Char} {n : Numeral}
    (read : Numeral.readUnsigned negative text = .ok (n, rest)) :
    ∃ literal : NumberLiteral, literal.negative = negative ∧ literal.numeral = n ∧
      text = literal.unsigned ++ rest := by
  obtain ⟨⟨whole, behind⟩, whole_read, read⟩ := exists_of_bind_eq_ok read
  obtain ⟨⟨fraction, behind⟩, fraction_read, read⟩ := exists_of_bind_eq_ok read
  obtain ⟨⟨parts, behind⟩, exponent_read, read⟩ := exists_of_bind_eq_ok read
  cases read
  obtain ⟨whole_run, alone, rfl⟩ := Numeral.digitRun_of_wholeDigits whole_read
  obtain ⟨fraction_run, rfl⟩ := exists_fraction_of_fractionPart fraction_read
  obtain ⟨exponent, rfl, rfl⟩ := exists_exponent_of_exponentPart exponent_read
  exact ⟨⟨negative, whole, fraction, exponent, whole_run, alone, fraction_run⟩, rfl, rfl,
    by simp [unsigned]⟩

/-- What is read as a number is a literal of the number. -/
theorem exists_of_read {text : List Char} {value : Number}
    (read : Number.read text = .ok (value, rest)) :
    ∃ literal : NumberLiteral, literal.number = .ok value ∧ text = literal.chars ++ rest := by
  obtain ⟨⟨n, behind⟩, numeral_read, found⟩ := exists_of_bind_eq_ok read
  dsimp only at found
  split at found
  · rename_i number_eq
    cases found
    unfold Numeral.read at numeral_read
    split at numeral_read
    · obtain ⟨literal, negative, rfl, rfl⟩ := exists_of_readUnsigned numeral_read
      exact ⟨literal, by rw [number, number_eq], by rw [chars, if_pos negative]; rfl⟩
    · obtain ⟨literal, positive, rfl, rfl⟩ := exists_of_readUnsigned numeral_read
      exact ⟨literal, by rw [number, number_eq], by rw [chars, positive, if_neg Bool.false_ne_true]⟩
  · cases found

end Reading

/-- A whole text that is a literal is read as the number that the literal spells. -/
theorem readText_text {α : Type} (build : Assembly α) (literal : NumberLiteral) :
    readText build literal.text =
      literal.number.map fun number => build.scalar (.number number) := by
  have read := literal.readValue_append build nestingLimit endsNumeral_nil
  rw [List.append_nil] at read
  rw [readText, readAll, text, String.toList_ofList, read]
  cases literal.number <;> rfl

end NumberLiteral
end Json
end PolicyReview
