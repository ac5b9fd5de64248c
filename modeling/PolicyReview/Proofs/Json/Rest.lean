import PolicyReview.Proofs.Json.Inversion
import Mathlib.Data.List.TakeDrop

/-!
# What readers leave

A reader takes characters from the front of a text only, so what it leaves is an end of the text.
-/

namespace PolicyReview
namespace Json

variable {α σ : Type}

/-- Whatever is read, an end of the text is left. -/
def Leaves (reader : Reader α) : Prop :=
  ∀ ⦃text value rest⦄, reader text = .ok (value, rest) → rest <:+ text

theorem skipSpace_suffix (text : List Char) : skipSpace text <:+ text :=
  List.dropWhile_suffix isSpace

theorem expectLetters_suffix {letters text rest : List Char}
    (read : expectLetters letters text = .ok rest) : rest <:+ text := by
  induction letters generalizing text with
  | nil =>
    cases read
    exact List.suffix_rfl
  | cons letter letters ih =>
    cases text with
    | nil => cases read
    | cons c text =>
      rw [expectLetters] at read
      split at read
      · exact (ih read).trans (List.suffix_cons c text)
      · cases read

theorem ContentRead.suffix {skipped : Nat} {text content rest : List Char}
    (read : ContentRead skipped text content rest) : rest <:+ text := by
  induction read with
  | closed rest => exact List.suffix_cons _ _
  | skipped _ ih => exact ih.trans (List.suffix_cons _ _)
  | escape _ _ ih => exact ih.trans (List.suffix_cons _ _)
  | plain _ _ _ _ ih => exact ih.trans (List.suffix_cons _ _)

theorem readString_leaves : Leaves readString := by
  intro text value rest read
  obtain ⟨⟨content, rest⟩, content_read, read⟩ := exists_of_bind_eq_ok read
  cases read
  exact (contentRead_of_readContent content_read).suffix

namespace Numeral

theorem digits_suffix {text run rest : List Char} (read : digits text = .ok (run, rest)) :
    rest <:+ text := by
  have span_eq : spanDigits text = (run, rest) := by
    unfold digits at read
    split at read
    · cases read
    · cases read
    · exact Except.ok.inj read
  rw [spanDigits, List.span_eq_takeWhile_dropWhile] at span_eq
  cases span_eq
  exact List.dropWhile_suffix Char.isDigit

theorem wholeDigits_suffix {text run rest : List Char}
    (read : wholeDigits text = .ok (run, rest)) : rest <:+ text := by
  unfold wholeDigits at read
  split at read
  · cases read
  · exact digits_suffix read

theorem fractionPart_suffix {text rest : List Char} {fraction : Option (List Char)}
    (read : fractionPart text = .ok (fraction, rest)) : rest <:+ text := by
  unfold fractionPart at read
  split at read
  · obtain ⟨⟨run, rest⟩, digits_read, read⟩ := exists_of_bind_eq_ok read
    cases read
    exact (digits_suffix digits_read).trans (List.suffix_cons _ _)
  · cases read
    exact List.suffix_rfl

theorem exponentDigits_suffix {text rest : List Char} {exponent : Bool × List Char}
    (read : exponentDigits text = .ok (exponent, rest)) : rest <:+ text := by
  unfold exponentDigits at read
  split at read
  all_goals
    obtain ⟨⟨run, rest⟩, digits_read, read⟩ := exists_of_bind_eq_ok read
    cases read
  · exact (digits_suffix digits_read).trans (List.suffix_cons _ _)
  · exact (digits_suffix digits_read).trans (List.suffix_cons _ _)
  · exact digits_suffix digits_read

theorem exponentPart_suffix {text rest : List Char} {exponent : Option (Bool × List Char)}
    (read : exponentPart text = .ok (exponent, rest)) : rest <:+ text := by
  unfold exponentPart at read
  split at read
  · cases read
    exact List.suffix_rfl
  · split at read
    · obtain ⟨⟨exponent, rest⟩, digits_read, read⟩ := exists_of_bind_eq_ok read
      cases read
      exact (exponentDigits_suffix digits_read).trans (List.suffix_cons _ _)
    · cases read
      exact List.suffix_rfl

theorem readUnsigned_suffix {negative : Bool} {text rest : List Char} {numeral : Numeral}
    (read : readUnsigned negative text = .ok (numeral, rest)) : rest <:+ text := by
  obtain ⟨⟨whole, behindWhole⟩, whole_read, read⟩ := exists_of_bind_eq_ok read
  obtain ⟨⟨fraction, behindFraction⟩, fraction_read, read⟩ := exists_of_bind_eq_ok read
  obtain ⟨⟨exponent, rest⟩, exponent_read, read⟩ := exists_of_bind_eq_ok read
  cases read
  exact (exponentPart_suffix exponent_read).trans
    ((fractionPart_suffix fraction_read).trans (wholeDigits_suffix whole_read))

theorem read_leaves : Leaves read := by
  intro text numeral rest numeral_read
  unfold read at numeral_read
  split at numeral_read
  · exact (readUnsigned_suffix numeral_read).trans (List.suffix_cons _ _)
  · exact readUnsigned_suffix numeral_read

end Numeral

theorem Number.read_leaves : Leaves Number.read := by
  intro text number rest read
  obtain ⟨⟨numeral, rest⟩, numeral_read, read⟩ := exists_of_bind_eq_ok read
  dsimp only at read
  split at read
  · cases read
    exact Numeral.read_leaves numeral_read
  · cases read

theorem Scalar.read_leaves : Leaves Scalar.read := by
  intro text value rest read
  cases scalarRead_of_read read with
  | null letters => exact (expectLetters_suffix letters).trans (List.suffix_cons _ _)
  | true letters => exact (expectLetters_suffix letters).trans (List.suffix_cons _ _)
  | false letters => exact (expectLetters_suffix letters).trans (List.suffix_cons _ _)
  | string content => exact (readString_leaves content).trans (List.suffix_cons _ _)
  | number _ digits => exact Number.read_leaves digits

/-- What follows the place where a list or an object goes on. -/
def Next.rest : Next → List Char
  | .closed rest => rest
  | .entry rest => rest

theorem nextItem_suffix {first : Bool} {text : List Char} {next : Next}
    (next_eq : nextItem first text = .ok next) : next.rest <:+ text := by
  have skipped := skipSpace_suffix text
  unfold nextItem at next_eq
  split at next_eq
  · cases next_eq
  · rename_i c behind space_eq
    rw [space_eq] at skipped
    have behind_suffix := (List.suffix_cons c behind).trans skipped
    split_ifs at next_eq
    · cases next_eq
      exact behind_suffix
    · cases next_eq
      exact skipped
    · split at next_eq
      · cases next_eq
      · cases next_eq
      · cases next_eq
        exact (skipSpace_suffix behind).trans behind_suffix

theorem keyQuote_suffix {atEnd : Error} {text : List Char} {next : Next}
    (next_eq : keyQuote atEnd text = .ok next) : next.rest <:+ text := by
  unfold keyQuote at next_eq
  split at next_eq
  · cases next_eq
  · split at next_eq
    · cases next_eq
      exact List.suffix_cons _ _
    · cases next_eq

theorem nextMember_suffix {first : Bool} {text : List Char} {next : Next}
    (next_eq : nextMember first text = .ok next) : next.rest <:+ text := by
  have skipped := skipSpace_suffix text
  unfold nextMember at next_eq
  split at next_eq
  · cases next_eq
  · rename_i c behind space_eq
    rw [space_eq] at skipped
    have behind_suffix := (List.suffix_cons c behind).trans skipped
    split_ifs at next_eq
    · cases next_eq
      exact behind_suffix
    · exact (keyQuote_suffix next_eq).trans skipped
    · split at next_eq
      · cases next_eq
      · exact ((keyQuote_suffix next_eq).trans (skipSpace_suffix behind)).trans behind_suffix

theorem afterColon_suffix {text rest : List Char} (colon : afterColon text = .ok rest) :
    rest <:+ text := by
  have skipped := skipSpace_suffix text
  rw [afterColon_eq_ok_iff.mp colon] at skipped
  exact (List.suffix_cons ':' rest).trans skipped

theorem readItems_leaves {item : Reader α} (item_leaves : Leaves item) (fuel : Nat)
    (first : Bool) : Leaves (readItems item fuel first) := by
  induction fuel generalizing first with
  | zero =>
    intro text values rest read
    cases read
  | succ fuel ih =>
    intro text values rest read
    cases itemsRead_of_readItems read with
    | closed next => exact nextItem_suffix next
    | entry next head tail =>
      exact ((ih false tail).trans (item_leaves head)).trans (nextItem_suffix next)

theorem readMembers_leaves {member : σ → String → Reader σ}
    (member_leaves : ∀ state key, Leaves (member state key)) (fuel : Nat) (first : Bool)
    (state : σ) : Leaves (readMembers member fuel first state) := by
  induction fuel generalizing first state with
  | zero =>
    intro text final rest read
    cases read
  | succ fuel ih =>
    intro text final rest read
    cases membersRead_of_readMembers read with
    | closed next => exact nextMember_suffix next
    | entry next key_read head tail =>
      exact (((ih false _ tail).trans (member_leaves _ _ head)).trans
        (readString_leaves key_read)).trans (nextMember_suffix next)

theorem readMember_leaves {value : Reader α} (value_leaves : Leaves value)
    (members : List (String × α)) (key : String) : Leaves (readMember value members key) := by
  intro text result rest read
  obtain ⟨behind, _, colon, value_read, _⟩ := readMember_eq_ok_iff.mp read
  exact (value_leaves value_read).trans (afterColon_suffix colon)

/-- Reading a value leaves an end of the text. -/
theorem readValue_leaves (build : Assembly α) (budget : Nat) :
    Leaves (readValue build budget) := by
  induction budget with
  | zero =>
    intro text value rest read
    cases valueRead_of_readValue read with
    | scalar _ _ scalar_read => exact (Scalar.read_leaves scalar_read).trans (skipSpace_suffix text)
  | succ budget ih =>
    intro text value rest read
    have skipped := skipSpace_suffix text
    cases valueRead_of_readValue read with
    | scalar _ _ scalar_read => exact (Scalar.read_leaves scalar_read).trans skipped
    | list opened items_read =>
      rw [opened] at skipped
      exact ((readItems_leaves ih _ _ items_read).trans (List.suffix_cons _ _)).trans skipped
    | object opened members_read =>
      rw [opened] at skipped
      exact ((readMembers_leaves (readMember_leaves ih) _ _ _ members_read).trans
        (List.suffix_cons _ _)).trans skipped

end Json
end PolicyReview
