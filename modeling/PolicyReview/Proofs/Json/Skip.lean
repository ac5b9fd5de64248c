import PolicyReview.Json.Skip
import PolicyReview.Proofs.Json.Rest

/-!
# Skipped values

A value that can be read is skipped to the place behind it, so a member that nobody wants does not
keep the members behind it from being read.
-/

namespace PolicyReview
namespace Json

variable {α : Type}

theorem skipContent_eq_drop (skipped : Nat) (text : List Char) :
    skipContent skipped text = skipContent 0 (text.drop skipped) := by
  induction text generalizing skipped with
  | nil =>
    rw [List.drop_nil]
    rfl
  | cons c text ih =>
    cases skipped with
    | zero => rfl
    | succ more => exact ih more

/-- The second half of a pair is skipped as an escape of its own. -/
theorem skipContent_of_pairEscape {high : Nat} {text : List Char} {c : Char} {width : Nat}
    (read : pairEscape high text = .ok (c, width)) :
    skipContent 0 text = skipContent width text := by
  unfold pairEscape at read
  split at read
  · cases read
  · cases read
  · rename_i behind
    obtain ⟨low, low_eq, read⟩ := exists_of_bind_eq_ok read
    split at read
    · obtain ⟨-, rfl⟩ := Prod.mk.inj (Except.ok.inj read)
      have form_eq : escapeWidth ('u' :: behind) = .ok 5 := by
        rw [escapeWidth, if_neg (by decide), if_pos rfl, low_eq]
        rfl
      simp [skipContent, form_eq]
    · cases read
  · cases read

/-- An escape that is decoded has the form of one. -/
theorem exists_escapeWidth_of_readEscape {text : List Char} {c : Char} {width : Nat}
    (read : readEscape text = .ok (c, width)) :
    ∃ form, escapeWidth text = .ok form ∧ skipContent form text = skipContent width text := by
  cases text with
  | nil => cases read
  | cons letter text =>
    rw [readEscape] at read
    cases short : shortEscape? letter with
    | some decoded =>
      simp only [short] at read
      cases read
      exact ⟨1, by simp [escapeWidth, short], rfl⟩
    | none =>
      simp only [short] at read
      split at read
      · rename_i unicode
        obtain ⟨unit, unit_eq, read⟩ := exists_of_bind_eq_ok read
        have form_eq : escapeWidth (letter :: text) = .ok 5 := by
          rw [escapeWidth, short, if_neg (by decide), if_pos unicode, unit_eq]
          rfl
        refine ⟨5, form_eq, ?_⟩
        split_ifs at read
        · obtain ⟨⟨decoded, second⟩, pair_eq, read⟩ := exists_of_bind_eq_ok read
          obtain ⟨-, rfl⟩ := Prod.mk.inj (Except.ok.inj read)
          have drop_eq : (text.drop 4).drop second = (letter :: text).drop (5 + second) := by
            rw [List.drop_drop, show 5 + second = 4 + second + 1 by omega, List.drop_succ_cons]
          rw [skipContent_eq_drop (5 + second), ← drop_eq, ← skipContent_eq_drop second,
            ← skipContent_of_pairEscape pair_eq, skipContent_eq_drop]
          rfl
        · cases read
          rfl
      · cases read

/-- A literal that is read is skipped. -/
theorem ContentRead.skipContent {skipped : Nat} {text content rest : List Char}
    (read : ContentRead skipped text content rest) : skipContent skipped text = .ok rest := by
  induction read with
  | closed rest => rfl
  | skipped _ ih => exact ih
  | escape escape_read _ ih =>
    obtain ⟨form, form_eq, skip_eq⟩ := exists_escapeWidth_of_readEscape escape_read
    rw [Json.skipContent, if_neg (by decide), if_pos rfl, form_eq]
    exact skip_eq.trans ih
  | plain notQuote notBackslash visible _ ih =>
    rw [Json.skipContent, if_neg notQuote, if_neg notBackslash, if_neg visible, ih]

theorem skipContent_of_readString {text rest : List Char} {value : String}
    (read : readString text = .ok (value, rest)) : skipContent 0 text = .ok rest := by
  obtain ⟨⟨content, rest⟩, content_read, read⟩ := exists_of_bind_eq_ok read
  cases read
  exact (contentRead_of_readContent content_read).skipContent

theorem skipNumeral_of_read {text rest : List Char} {number : Number}
    (read : Number.read text = .ok (number, rest)) : skipNumeral text = .ok rest := by
  obtain ⟨⟨numeral, rest⟩, numeral_read, read⟩ := exists_of_bind_eq_ok read
  dsimp only at read
  split at read
  · cases read
    simp only [skipNumeral, numeral_read]
  · cases read

theorem skipScalar_of_read {text rest : List Char} {value : Scalar}
    (read : Scalar.read text = .ok (value, rest)) : skipScalar text = .ok rest := by
  cases text with
  | nil => cases read
  | cons c text =>
    rw [Scalar.read] at read
    rw [skipScalar]
    split_ifs at read ⊢
    · obtain ⟨rest, letters_read, read⟩ := exists_of_bind_eq_ok read
      cases read
      exact letters_read
    · obtain ⟨rest, letters_read, read⟩ := exists_of_bind_eq_ok read
      cases read
      exact letters_read
    · obtain ⟨rest, letters_read, read⟩ := exists_of_bind_eq_ok read
      cases read
      exact letters_read
    · obtain ⟨⟨value, rest⟩, string_read, read⟩ := exists_of_bind_eq_ok read
      cases read
      exact skipContent_of_readString string_read
    · obtain ⟨⟨value, rest⟩, number_read, read⟩ := exists_of_bind_eq_ok read
      cases read
      exact skipNumeral_of_read number_read

/-- In texts below a length, what is read is skipped. -/
def Skips (skip : Skipper) (reader : Reader α) (bound : Nat) : Prop :=
  ∀ ⦃text value rest⦄, text.length < bound → reader text = .ok (value, rest) →
    skip text = .ok rest

section Loops

variable {skip : Skipper} {reader : Reader α} {bound : Nat}

/-- The items behind the first are skipped up to the closing bracket. -/
theorem skipItems_of_readItems (leaves : Leaves reader) (skips : Skips skip reader bound)
    (blanks : ∀ text, skip (skipSpace text) = skip text) (fuel : Nat) :
    Skips (skipItems skip fuel) (readItems reader fuel false) bound := by
  induction fuel with
  | zero =>
    intro text values rest _ read
    cases read
  | succ fuel ih =>
    intro text values rest short read
    cases itemsRead_of_readItems read with
    | closed next => simp [skipItems, skipSpace_of_nextItem_closed next]
    | @entry _ _ _ item behind _ _ next head tail =>
      obtain ⟨afterComma, comma, item_eq⟩ := exists_comma_of_nextItem next
      have item_length : item.length ≤ text.length := (nextItem_suffix next).length_le
      have behind_length := (leaves head).length_le
      have item_skipped : skip afterComma = .ok behind := by
        rw [← blanks, item_eq]
        exact skips (by omega) head
      have others_skipped := ih (by omega) tail
      simp [skipItems, comma, item_skipped, others_skipped, bind, Except.bind]

theorem skipList_of_readItems (leaves : Leaves reader) (skips : Skips skip reader bound)
    (blanks : ∀ text, skip (skipSpace text) = skip text) (fuel : Nat) :
    Skips (skipList skip fuel) (readItems reader (fuel + 1) true) bound := by
  intro text values rest short read
  cases itemsRead_of_readItems read with
  | closed next => simp [skipList, skipSpace_of_nextItem_closed next]
  | @entry _ _ _ item behind _ _ next head tail =>
    have item_length : item.length ≤ text.length := (nextItem_suffix next).length_le
    have behind_length := (leaves head).length_le
    have item_skipped := skips (by omega) head
    have others_skipped := skipItems_of_readItems leaves skips blanks fuel (by omega) tail
    obtain ⟨space_eq, c, more, rfl, notClose⟩ := skipSpace_of_nextItem_first next
    simp [skipList, space_eq, notClose, item_skipped, others_skipped, bind, Except.bind]

/-- A member is skipped from its key on. -/
theorem skipMember_of_readMember (skips : Skips skip reader bound) {members : List (String × α)}
    {key : String} {text content behind rest : List Char} {result : List (String × α)}
    (short : text.length < bound) (quote : skipSpace text = '"' :: content)
    (key_read : readString content = .ok (key, behind))
    (member_read : readMember reader members key behind = .ok (result, rest)) :
    skipMember skip text = .ok rest := by
  obtain ⟨afterKey, value, colon, value_read, _⟩ := readMember_eq_ok_iff.mp member_read
  have opened : keyQuote (.endOfText .object) ('"' :: content) = .ok (.entry content) :=
    keyQuote_eq_entry_iff.mpr rfl
  have content_length : content.length < text.length := by
    have quote_length := (skipSpace_suffix text).length_le
    rw [quote] at quote_length
    exact quote_length
  have value_length : afterKey.length ≤ content.length :=
    ((afterColon_suffix colon).trans (readString_leaves key_read)).length_le
  have value_skipped := skips (by omega) value_read
  simp [skipMember, quote, opened, skipContent_of_readString key_read, colon, value_skipped, bind,
    Except.bind]

/-- The members behind the first are skipped up to the closing bracket. -/
theorem skipMembers_of_readMembers (leaves : Leaves reader) (skips : Skips skip reader bound)
    (fuel : Nat) (members : List (String × α)) :
    Skips (skipMembers skip fuel) (readMembers (readMember reader) fuel false members) bound := by
  induction fuel generalizing members with
  | zero =>
    intro text final rest _ read
    cases read
  | succ fuel ih =>
    intro text final rest short read
    cases membersRead_of_readMembers read with
    | closed next => simp [skipMembers, skipSpace_of_nextMember_closed next]
    | @entry _ _ _ _ _ behind _ _ _ next key_read head tail =>
      obtain ⟨afterComma, comma, quote⟩ := exists_comma_of_nextMember next
      have comma_length := (skipSpace_suffix text).length_le
      rw [comma, List.length_cons] at comma_length
      have behind_length : behind.length ≤ text.length :=
        ((readMember_leaves leaves _ _ head).trans
          ((readString_leaves key_read).trans (nextMember_suffix next))).length_le
      have member_skipped := skipMember_of_readMember skips (by omega) quote key_read head
      have others_skipped := ih _ (by omega) tail
      simp [skipMembers, comma, member_skipped, others_skipped, bind, Except.bind]

theorem skipObject_of_readMembers (leaves : Leaves reader) (skips : Skips skip reader bound)
    (fuel : Nat) :
    Skips (skipObject skip fuel) (readMembers (readMember reader) (fuel + 1) true []) bound := by
  intro text final rest short read
  cases membersRead_of_readMembers read with
  | closed next => simp [skipObject, skipSpace_of_nextMember_closed next]
  | @entry _ _ _ content _ behind _ _ _ next key_read head tail =>
    have quote := skipSpace_of_nextMember_first next
    have quote_length := (skipSpace_suffix text).length_le
    rw [quote] at quote_length
    have blanks : skipSpace ('"' :: content) = '"' :: content := rfl
    have behind_length : behind.length ≤ text.length :=
      ((readMember_leaves leaves _ _ head).trans
        ((readString_leaves key_read).trans (nextMember_suffix next))).length_le
    have member_skipped := skipMember_of_readMember skips (by omega) blanks key_read head
    have others_skipped := skipMembers_of_readMembers leaves skips fuel _ (by omega) tail
    simp [skipObject, quote, member_skipped, others_skipped, bind, Except.bind]

end Loops

theorem skipNested_skipSpace (levels : Nat) (text : List Char) :
    skipNested levels (skipSpace text) = skipNested levels text := by
  cases levels with
  | zero => rfl
  | succ levels =>
    rw [skipNested, skipSpace_idempotent, skipNested]

theorem skipNested_of_scalar {text rest : List Char} {value : Scalar}
    (notList : ∀ inside, skipSpace text ≠ '[' :: inside)
    (notObject : ∀ inside, skipSpace text ≠ '\x7b' :: inside)
    (read : Scalar.read (skipSpace text) = .ok (value, rest)) (levels : Nat) :
    skipNested (levels + 1) text = .ok rest := by
  rw [skipNested]
  split
  · rename_i inside opened
    exact absurd opened (notList inside)
  · rename_i inside opened
    exact absurd opened (notObject inside)
  · exact skipScalar_of_read read

/-- A text has no more open brackets than characters, so as many levels suffice. -/
theorem skipNested_of_readValue (build : Assembly α) (budget levels : Nat) :
    Skips (skipNested levels) (readValue build budget) levels := by
  induction budget generalizing levels with
  | zero =>
    intro text value rest short read
    obtain ⟨levels, rfl⟩ := Nat.exists_eq_add_one.mpr (Nat.zero_lt_of_lt short)
    cases valueRead_of_readValue read with
    | scalar notList notObject scalar_read =>
      exact skipNested_of_scalar notList notObject scalar_read levels
  | succ budget ih =>
    intro text value rest short read
    obtain ⟨levels, rfl⟩ := Nat.exists_eq_add_one.mpr (Nat.zero_lt_of_lt short)
    have skipped := (skipSpace_suffix text).length_le
    cases valueRead_of_readValue read with
    | scalar notList notObject scalar_read =>
      exact skipNested_of_scalar notList notObject scalar_read levels
    | list opened items_read =>
      rw [opened, List.length_cons] at skipped
      rw [skipNested, opened]
      exact skipList_of_readItems (readValue_leaves build budget) (ih levels)
        (skipNested_skipSpace levels) _ (by omega) items_read
    | object opened members_read =>
      rw [opened, List.length_cons] at skipped
      rw [skipNested, opened]
      exact skipObject_of_readMembers (readValue_leaves build budget) (ih levels) _ (by omega)
        members_read

/-- A value that is read is skipped to the same place. -/
theorem skipValue_of_readValue {build : Assembly α} {budget : Nat} {text rest : List Char}
    {value : α} (read : readValue build budget text = .ok (value, rest)) :
    skipValue text = .ok rest :=
  skipNested_of_readValue build budget _ (Nat.lt_add_one _) read

end Json
end PolicyReview
