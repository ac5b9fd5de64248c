import PolicyReview.Json.Reader
import PolicyReview.Proofs.Outcome
import Mathlib.Data.List.DropRight
import Mathlib.Tactic.SplitIfs

/-!
# How values were read

A successful run of a reader tells what the text was: where the next item or member stands, which
parts were read one after the other, and which bracket a value opened.  Each loop and each reader is
opened here once, and what is proved about reading goes by cases on these descriptions.
-/

namespace PolicyReview
namespace Json

variable {α σ : Type}

theorem skipSpace_idempotent (text : List Char) : skipSpace (skipSpace text) = skipSpace text :=
  List.dropWhile_idempotent isSpace text

/-- How a scalar was read: its first character tells its kind. -/
inductive ScalarRead (rest : List Char) : List Char → Scalar → Prop where
  | null {text : List Char} (letters : expectLetters ['u', 'l', 'l'] text = .ok rest) :
    ScalarRead rest ('n' :: text) .null
  | true {text : List Char} (letters : expectLetters ['r', 'u', 'e'] text = .ok rest) :
    ScalarRead rest ('t' :: text) (.bool true)
  | false {text : List Char} (letters : expectLetters ['a', 'l', 's', 'e'] text = .ok rest) :
    ScalarRead rest ('f' :: text) (.bool false)
  | string {text : List Char} {value : String} (content : readString text = .ok (value, rest)) :
    ScalarRead rest ('"' :: text) (.string value)
  | number {c : Char} {text : List Char} {value : Number} (numeral : c = '-' ∨ c.isDigit = true)
    (digits : Number.read (c :: text) = .ok (value, rest)) :
    ScalarRead rest (c :: text) (.number value)

theorem scalarRead_of_read {text rest : List Char} {value : Scalar}
    (read : Scalar.read text = .ok (value, rest)) : ScalarRead rest text value := by
  cases text with
  | nil => cases read
  | cons c text =>
    rw [Scalar.read] at read
    split_ifs at read with null true false quote numeral
    · obtain ⟨rest, letters, read⟩ := exists_of_bind_eq_ok read
      cases read
      exact null ▸ .null letters
    · obtain ⟨rest, letters, read⟩ := exists_of_bind_eq_ok read
      cases read
      exact true ▸ .true letters
    · obtain ⟨rest, letters, read⟩ := exists_of_bind_eq_ok read
      cases read
      exact false ▸ .false letters
    · obtain ⟨⟨value, rest⟩, content, read⟩ := exists_of_bind_eq_ok read
      cases read
      exact quote ▸ .string content
    · obtain ⟨⟨value, rest⟩, digits, read⟩ := exists_of_bind_eq_ok read
      cases read
      exact .number numeral digits

section Next

variable {text rest : List Char}

theorem skipSpace_of_nextItem_closed {first : Bool}
    (next : nextItem first text = .ok (.closed rest)) : skipSpace text = ']' :: rest := by
  unfold nextItem at next
  split at next
  · cases next
  · rename_i space_eq
    split_ifs at next with close
    · cases next
      rw [space_eq, close]
    · cases next
    · split at next <;> cases next

theorem skipSpace_of_nextItem_first (next : nextItem true text = .ok (.entry rest)) :
    skipSpace text = rest ∧ ∃ c more, rest = c :: more ∧ c ≠ ']' := by
  unfold nextItem at next
  split at next
  · cases next
  · rename_i c more space_eq
    rw [if_pos rfl] at next
    split at next
    · cases next
    · rename_i notClose
      cases next
      exact ⟨space_eq, c, more, rfl, notClose⟩

theorem exists_comma_of_nextItem (next : nextItem false text = .ok (.entry rest)) :
    ∃ behind, skipSpace text = ',' :: behind ∧ skipSpace behind = rest := by
  unfold nextItem at next
  split at next
  · cases next
  · rename_i c behind space_eq
    rw [if_neg Bool.false_ne_true] at next
    split_ifs at next with close comma
    · cases next
    · split at next
      · cases next
      · cases next
      · cases next
        exact ⟨behind, by rw [space_eq, comma], rfl⟩

/-- No item begins with the closing bracket. -/
theorem skipSpace_ne_of_nextItem_entry {first : Bool} {item : List Char}
    (next : nextItem first text = .ok (.entry item)) : skipSpace text ≠ ']' :: rest := by
  cases first with
  | true =>
    obtain ⟨space_eq, c, more, rfl, notClose⟩ := skipSpace_of_nextItem_first next
    rw [space_eq]
    exact fun same => notClose (List.cons.inj same).1
  | false =>
    obtain ⟨behind, space_eq, _⟩ := exists_comma_of_nextItem next
    rw [space_eq]
    exact fun same => absurd (List.cons.inj same).1 (by decide)

theorem keyQuote_eq_entry_iff {atEnd : Error} :
    keyQuote atEnd text = .ok (.entry rest) ↔ text = '"' :: rest := by
  unfold keyQuote
  split
  · simp
  · split
    · rename_i quote
      simp [quote]
    · rename_i notQuote
      simp [notQuote]

theorem keyQuote_ne_closed {atEnd : Error} : keyQuote atEnd text ≠ .ok (.closed rest) := by
  unfold keyQuote
  split
  · simp
  · split <;> simp

theorem skipSpace_of_nextMember_closed {first : Bool}
    (next : nextMember first text = .ok (.closed rest)) : skipSpace text = '\x7d' :: rest := by
  unfold nextMember at next
  split at next
  · cases next
  · rename_i space_eq
    split_ifs at next with close
    · cases next
      rw [space_eq, close]
    · exact absurd next keyQuote_ne_closed
    · split at next
      · cases next
      · exact absurd next keyQuote_ne_closed

theorem skipSpace_of_nextMember_first (next : nextMember true text = .ok (.entry rest)) :
    skipSpace text = '"' :: rest := by
  unfold nextMember at next
  split at next
  · cases next
  · rename_i space_eq
    rw [if_pos rfl] at next
    split at next
    · cases next
    · rw [space_eq]
      exact keyQuote_eq_entry_iff.mp next

theorem exists_comma_of_nextMember (next : nextMember false text = .ok (.entry rest)) :
    ∃ behind, skipSpace text = ',' :: behind ∧ skipSpace behind = '"' :: rest := by
  unfold nextMember at next
  split at next
  · cases next
  · rename_i c behind space_eq
    rw [if_neg Bool.false_ne_true] at next
    split_ifs at next with close comma
    · cases next
    · split at next
      · cases next
      · exact ⟨behind, by rw [space_eq, comma], keyQuote_eq_entry_iff.mp next⟩

end Next

/-- How the content of a literal was read: up to its closing quote, character by character, where an
escape is decoded first and passed over behind its backslash. -/
inductive ContentRead : Nat → List Char → List Char → List Char → Prop where
  | closed (rest : List Char) : ContentRead 0 ('"' :: rest) [] rest
  | skipped {more : Nat} {c : Char} {text content rest : List Char}
    (tail : ContentRead more text content rest) : ContentRead (more + 1) (c :: text) content rest
  | escape {decoded : Char} {width : Nat} {text content rest : List Char}
    (escape_read : readEscape text = .ok (decoded, width))
    (tail : ContentRead width text content rest) :
    ContentRead 0 ('\\' :: text) (decoded :: content) rest
  | plain {c : Char} {text content rest : List Char} (notQuote : c ≠ '"') (notBackslash : c ≠ '\\')
    (visible : ¬ c < ' ') (tail : ContentRead 0 text content rest) :
    ContentRead 0 (c :: text) (c :: content) rest

theorem contentRead_of_readContent {skipped : Nat} {text content rest : List Char}
    (read : readContent skipped text = .ok (content, rest)) :
    ContentRead skipped text content rest := by
  induction text generalizing skipped content with
  | nil => cases read
  | cons c text ih =>
    unfold readContent at read
    cases skipped with
    | succ more => exact .skipped (ih read)
    | zero =>
      dsimp only at read
      split_ifs at read with quote backslash control
      · subst quote
        cases read
        exact .closed rest
      · subst backslash
        cases escape_read : readEscape text with
        | error error => simp [escape_read] at read
        | ok escape =>
          simp only [escape_read] at read
          split at read
          · cases read
          · rename_i content_read
            cases read
            exact .escape escape_read (ih content_read)
      · split at read
        · cases read
        · rename_i content_read
          cases read
          exact .plain quote backslash control (ih content_read)

/-- How the items of a list were read: the list closes, or an item stands in front of others. -/
inductive ItemsRead (item : Reader α) (rest : List Char) : Nat → Bool → List Char → List α → Prop
  where
  | closed {fuel : Nat} {first : Bool} {text : List Char}
    (next : nextItem first text = .ok (.closed rest)) :
    ItemsRead item rest (fuel + 1) first text []
  | entry {fuel : Nat} {first : Bool} {text entry behind : List Char} {value : α}
    {values : List α} (next : nextItem first text = .ok (.entry entry))
    (head : item entry = .ok (value, behind))
    (tail : readItems item fuel false behind = .ok (values, rest)) :
    ItemsRead item rest (fuel + 1) first text (value :: values)

theorem itemsRead_of_readItems {item : Reader α} {fuel : Nat} {first : Bool}
    {text rest : List Char} {values : List α}
    (read : readItems item fuel first text = .ok (values, rest)) :
    ItemsRead item rest fuel first text values := by
  cases fuel with
  | zero => cases read
  | succ fuel =>
    rw [readItems] at read
    obtain ⟨next, next_eq, read⟩ := exists_of_bind_eq_ok read
    cases next with
    | closed rest =>
      cases read
      exact .closed next_eq
    | entry entry =>
      obtain ⟨⟨value, behind⟩, value_read, read⟩ := exists_of_bind_eq_ok read
      obtain ⟨⟨values, rest⟩, values_read, read⟩ := exists_of_bind_eq_ok read
      cases read
      exact .entry next_eq value_read values_read

/-- How the members of an object were read: the object closes, or a member stands in front of
others. -/
inductive MembersRead (member : σ → String → Reader σ) (final : σ) (rest : List Char) :
    Nat → Bool → σ → List Char → Prop where
  | closed {fuel : Nat} {first : Bool} {text : List Char}
    (next : nextMember first text = .ok (.closed rest)) :
    MembersRead member final rest (fuel + 1) first final text
  | entry {fuel : Nat} {first : Bool} {text content afterKey behind : List Char} {key : String}
    {state after : σ} (next : nextMember first text = .ok (.entry content))
    (key_read : readString content = .ok (key, afterKey))
    (head : member state key afterKey = .ok (after, behind))
    (tail : readMembers member fuel false after behind = .ok (final, rest)) :
    MembersRead member final rest (fuel + 1) first state text

theorem membersRead_of_readMembers {member : σ → String → Reader σ} {fuel : Nat} {first : Bool}
    {state final : σ} {text rest : List Char}
    (read : readMembers member fuel first state text = .ok (final, rest)) :
    MembersRead member final rest fuel first state text := by
  cases fuel with
  | zero => cases read
  | succ fuel =>
    rw [readMembers] at read
    obtain ⟨next, next_eq, read⟩ := exists_of_bind_eq_ok read
    cases next with
    | closed rest =>
      cases read
      exact .closed next_eq
    | entry content =>
      obtain ⟨⟨key, afterKey⟩, key_read, read⟩ := exists_of_bind_eq_ok read
      obtain ⟨⟨after, behind⟩, member_read, read⟩ := exists_of_bind_eq_ok read
      exact .entry next_eq key_read member_read read

theorem afterColon_eq_ok_iff {text rest : List Char} :
    afterColon text = .ok rest ↔ skipSpace text = ':' :: rest := by
  unfold afterColon
  cases skipSpace text with
  | nil => simp
  | cons c behind =>
    by_cases colon : c = ':'
    · simp [colon]
    · simp [colon]

theorem readMember_eq_ok_iff {reader : Reader α} {members result : List (String × α)}
    {key : String} {text rest : List Char} :
    readMember reader members key text = .ok (result, rest) ↔ ∃ behind value,
      afterColon text = .ok behind ∧ reader behind = .ok (value, rest) ∧
        result = (key, value) :: members := by
  constructor
  · intro read
    obtain ⟨behind, colon, read⟩ := exists_of_bind_eq_ok read
    obtain ⟨⟨value, rest⟩, value_read, read⟩ := exists_of_bind_eq_ok read
    cases read
    exact ⟨behind, value, colon, value_read, rfl⟩
  · rintro ⟨behind, value, colon, value_read, rfl⟩
    simp [readMember, colon, value_read, bind, Except.bind]

/-- How a value was read within a budget: it is a scalar, or a bracket that the budget allows. -/
inductive ValueRead (build : Assembly α) (text rest : List Char) : Nat → α → Prop where
  | scalar {budget : Nat} {value : Scalar} (notList : ∀ inside, skipSpace text ≠ '[' :: inside)
    (notObject : ∀ inside, skipSpace text ≠ '\x7b' :: inside)
    (read : Scalar.read (skipSpace text) = .ok (value, rest)) :
    ValueRead build text rest budget (build.scalar value)
  | list {budget : Nat} {inside : List Char} {items : List α}
    (opened : skipSpace text = '[' :: inside)
    (read : readItems (readValue build budget) (inside.length + 1) true inside =
      .ok (items, rest)) :
    ValueRead build text rest (budget + 1) (build.list items)
  | object {budget : Nat} {inside : List Char} {members : List (String × α)}
    (opened : skipSpace text = '\x7b' :: inside)
    (read : readMembers (readMember (readValue build budget)) (inside.length + 1) true [] inside =
      .ok (members.reverse, rest)) :
    ValueRead build text rest (budget + 1) (build.object members)

theorem valueRead_of_readValue {build : Assembly α} {budget : Nat} {text rest : List Char}
    {value : α} (read : readValue build budget text = .ok (value, rest)) :
    ValueRead build text rest budget value := by
  cases budget with
  | zero =>
    rw [readValue] at read
    unfold readValueWith at read
    split at read
    · cases read
    · cases read
    · rename_i notList notObject
      obtain ⟨⟨value, rest⟩, scalar_read, read⟩ := exists_of_bind_eq_ok read
      cases read
      exact .scalar notList notObject scalar_read
  | succ budget =>
    rw [readValue] at read
    unfold readValueWith at read
    split at read
    · rename_i inside opened
      obtain ⟨_, ⟨⟩, read⟩ := exists_of_bind_eq_ok read
      obtain ⟨⟨items, rest⟩, items_read, read⟩ := exists_of_bind_eq_ok read
      cases read
      exact .list opened items_read
    · rename_i inside opened
      obtain ⟨_, ⟨⟩, read⟩ := exists_of_bind_eq_ok read
      obtain ⟨⟨members, rest⟩, members_read, read⟩ := exists_of_bind_eq_ok read
      cases read
      rw [← List.reverse_reverse members] at members_read
      exact .object opened members_read
    · rename_i notList notObject
      obtain ⟨⟨value, rest⟩, scalar_read, read⟩ := exists_of_bind_eq_ok read
      cases read
      exact .scalar notList notObject scalar_read

end Json
end PolicyReview
