import PolicyReview.Proofs.Json.Meaning

/-!
# Spelled documents

A document is spelled in a text with any blanks between its parts.  Blanks are skipped wherever a
part may begin, so every text that spells a document is read as the document, as long as no more
brackets are open than the budget allows.
-/

namespace PolicyReview
namespace Json
namespace Document

mutual

/-- The text spells the document in front of `rest`, with any blanks before and between its
parts. -/
def Spelled : Document → List Char → List Char → Prop
  | .scalar value, text, rest => Scalar.read (skipSpace text) = .ok (value, rest)
  | .list [], text, rest => ∃ inside, skipSpace text = '[' :: inside ∧
      skipSpace inside = ']' :: rest
  | .list (item :: items), text, rest => ∃ inside behind, skipSpace text = '[' :: inside ∧
      item.Spelled inside behind ∧ ItemsSpelled items behind rest
  | .object [], text, rest => ∃ inside, skipSpace text = '\x7b' :: inside ∧
      skipSpace inside = '\x7d' :: rest
  | .object (member :: members), text, rest => ∃ inside behind, skipSpace text = '\x7b' :: inside ∧
      MemberSpelled member inside behind ∧ MembersSpelled members behind rest

/-- The text spells the items after the first, each behind a comma, and the closing bracket. -/
def ItemsSpelled : List Document → List Char → List Char → Prop
  | [], text, rest => skipSpace text = ']' :: rest
  | item :: items, text, rest => ∃ inside behind, skipSpace text = ',' :: inside ∧
      item.Spelled inside behind ∧ ItemsSpelled items behind rest

/-- The text spells a member. -/
def MemberSpelled : String × Document → List Char → List Char → Prop
  | (key, value), text, rest => ∃ content afterKey inside, skipSpace text = '"' :: content ∧
      readString content = .ok (key, afterKey) ∧ afterColon afterKey = .ok inside ∧
      value.Spelled inside rest

/-- The text spells the members after the first, each behind a comma, and the closing bracket. -/
def MembersSpelled : List (String × Document) → List Char → List Char → Prop
  | [], text, rest => skipSpace text = '\x7d' :: rest
  | member :: members, text, rest => ∃ inside behind, skipSpace text = ',' :: inside ∧
      MemberSpelled member inside behind ∧ MembersSpelled members behind rest

end

/-- The reader takes every text that spells the document. -/
def ReadsSpelled (budget : Nat) (document : Document) : Prop :=
  ∀ ⦃text rest⦄, document.Spelled text rest →
    readValue assembly budget text = .ok (document, rest)

variable {budget : Nat}

/-- No document begins with the closing bracket of a list. -/
theorem Spelled.exists_cons {document : Document} {text rest : List Char}
    (spelled : document.Spelled text rest) :
    ∃ c more, skipSpace text = c :: more ∧ c ≠ ']' := by
  cases document with
  | scalar value =>
    rw [Spelled] at spelled
    generalize skipSpace text = visible at spelled
    cases scalarRead_of_read spelled with
    | null => exact ⟨_, _, rfl, by decide⟩
    | true => exact ⟨_, _, rfl, by decide⟩
    | false => exact ⟨_, _, rfl, by decide⟩
    | string => exact ⟨_, _, rfl, by decide⟩
    | number numeral => exact ⟨_, _, rfl, ne_of_numeral ']' numeral (by decide) (by decide)⟩
  | list items =>
    cases items with
    | nil =>
      obtain ⟨inside, opened, _⟩ := spelled
      exact ⟨_, _, opened, by decide⟩
    | cons item items =>
      obtain ⟨inside, _, opened, _⟩ := spelled
      exact ⟨_, _, opened, by decide⟩
  | object members =>
    cases members with
    | nil =>
      obtain ⟨inside, opened, _⟩ := spelled
      exact ⟨_, _, opened, by decide⟩
    | cons member members =>
      obtain ⟨inside, _, opened, _⟩ := spelled
      exact ⟨_, _, opened, by decide⟩

theorem nextItem_of_closed {first : Bool} {text rest : List Char}
    (closed : skipSpace text = ']' :: rest) : nextItem first text = .ok (.closed rest) := by
  simp [nextItem, closed]

theorem nextItem_of_spelled {item : Document} {text behind : List Char}
    (spelled : item.Spelled text behind) : nextItem true text = .ok (.entry (skipSpace text)) := by
  obtain ⟨c, more, space_eq, notClose⟩ := spelled.exists_cons
  simp [nextItem, space_eq, notClose]

theorem nextItem_of_comma {item : Document} {text inside behind : List Char}
    (comma : skipSpace text = ',' :: inside) (spelled : item.Spelled inside behind) :
    nextItem false text = .ok (.entry (skipSpace inside)) := by
  obtain ⟨c, more, space_eq, notClose⟩ := spelled.exists_cons
  simp [nextItem, comma, space_eq, notClose]

/-- Every item behind the first takes a character, and so does the closing bracket. -/
theorem length_lt_of_itemsSpelled {items : List Document}
    (reads : ∀ item ∈ items, ReadsSpelled budget item) {text rest : List Char}
    (spelled : ItemsSpelled items text rest) : items.length < text.length := by
  have skipped := (skipSpace_suffix text).length_le
  induction items generalizing text with
  | nil =>
    rw [show skipSpace text = ']' :: rest from spelled, List.length_cons] at skipped
    exact Nat.zero_lt_of_lt skipped
  | cons item items ih =>
    obtain ⟨inside, behind, comma, item_spelled, others_spelled⟩ := spelled
    rw [comma, List.length_cons] at skipped
    have behind_length :=
      (readValue_leaves _ _ (reads item List.mem_cons_self item_spelled)).length_le
    have others := ih (fun other other_mem => reads other (List.mem_cons_of_mem _ other_mem))
      others_spelled (skipSpace_suffix behind).length_le
    rw [List.length_cons]
    omega

/-- The items behind the first are read up to the closing bracket. -/
theorem readItems_of_spelled {items : List Document}
    (reads : ∀ item ∈ items, ReadsSpelled budget item) {text rest : List Char}
    (spelled : ItemsSpelled items text rest) (fuel : Nat) (enough : items.length < fuel) :
    readItems (readValue assembly budget) fuel false text = .ok (items, rest) := by
  induction items generalizing text fuel with
  | nil =>
    obtain ⟨fuel, rfl⟩ := Nat.exists_eq_add_one.mpr enough
    exact readItems_closed (nextItem_of_closed spelled)
  | cons item items ih =>
    obtain ⟨fuel, rfl⟩ := Nat.exists_eq_add_one.mpr (Nat.zero_lt_of_lt enough)
    obtain ⟨inside, behind, comma, item_spelled, others_spelled⟩ := spelled
    have item_read := reads item List.mem_cons_self item_spelled
    have others_read := ih (fun other other_mem => reads other (List.mem_cons_of_mem _ other_mem))
      others_spelled fuel (by simpa using enough)
    rw [← readValue_skipSpace] at item_read
    rw [readItems, nextItem_of_comma comma item_spelled]
    simp [item_read, others_read, bind, Except.bind]

theorem nextMember_of_closed {first : Bool} {text rest : List Char}
    (closed : skipSpace text = '\x7d' :: rest) : nextMember first text = .ok (.closed rest) := by
  simp [nextMember, closed]

theorem nextMember_of_quote {text content : List Char} (quote : skipSpace text = '"' :: content) :
    nextMember true text = .ok (.entry content) := by
  simp [nextMember, quote, keyQuote]

theorem nextMember_of_comma {text inside content : List Char}
    (comma : skipSpace text = ',' :: inside) (quote : skipSpace inside = '"' :: content) :
    nextMember false text = .ok (.entry content) := by
  simp [nextMember, comma, quote, keyQuote]

/-- A member is read from its key on. -/
theorem exists_readMember_of_spelled {member : String × Document}
    (reads : ReadsSpelled budget member.2) {text behind : List Char}
    (spelled : MemberSpelled member text behind) :
    ∃ content afterKey, skipSpace text = '"' :: content ∧
      readString content = .ok (member.1, afterKey) ∧ behind.length ≤ text.length ∧
      ∀ before, readMember (readValue assembly budget) before member.1 afterKey =
        .ok (member :: before, behind) := by
  obtain ⟨key, value⟩ := member
  obtain ⟨content, afterKey, inside, quote, key_read, colon, value_spelled⟩ := spelled
  have value_read := reads value_spelled
  have quote_suffix := skipSpace_suffix text
  rw [quote] at quote_suffix
  have behind_suffix := (readValue_leaves _ _ value_read).trans
    ((afterColon_suffix colon).trans ((readString_leaves key_read).trans
      ((List.suffix_cons '"' content).trans quote_suffix)))
  exact ⟨content, afterKey, quote, key_read, behind_suffix.length_le,
    fun before => readMember_eq_ok_iff.mpr ⟨inside, value, colon, value_read, rfl⟩⟩

/-- Every member behind the first takes a character, and so does the closing bracket. -/
theorem length_lt_of_membersSpelled {members : List (String × Document)}
    (reads : ∀ member ∈ members, ReadsSpelled budget member.2) {text rest : List Char}
    (spelled : MembersSpelled members text rest) : members.length < text.length := by
  have skipped := (skipSpace_suffix text).length_le
  induction members generalizing text with
  | nil =>
    rw [show skipSpace text = '\x7d' :: rest from spelled, List.length_cons] at skipped
    exact Nat.zero_lt_of_lt skipped
  | cons member members ih =>
    obtain ⟨inside, behind, comma, member_spelled, others_spelled⟩ := spelled
    rw [comma, List.length_cons] at skipped
    obtain ⟨_, _, _, _, behind_length, _⟩ :=
      exists_readMember_of_spelled (reads member List.mem_cons_self) member_spelled
    have others := ih (fun other other_mem => reads other (List.mem_cons_of_mem _ other_mem))
      others_spelled (skipSpace_suffix behind).length_le
    rw [List.length_cons]
    omega

/-- The members behind the first are read up to the closing bracket. -/
theorem readMembers_of_spelled {members : List (String × Document)}
    (reads : ∀ member ∈ members, ReadsSpelled budget member.2) {text rest : List Char}
    (spelled : MembersSpelled members text rest) (fuel : Nat) (enough : members.length < fuel)
    (before : List (String × Document)) :
    readMembers (readMember (readValue assembly budget)) fuel false before text =
      .ok (members.reverse ++ before, rest) := by
  induction members generalizing text fuel before with
  | nil =>
    obtain ⟨fuel, rfl⟩ := Nat.exists_eq_add_one.mpr enough
    exact readMembers_closed (nextMember_of_closed spelled)
  | cons member members ih =>
    obtain ⟨fuel, rfl⟩ := Nat.exists_eq_add_one.mpr (Nat.zero_lt_of_lt enough)
    obtain ⟨inside, behind, comma, member_spelled, others_spelled⟩ := spelled
    obtain ⟨content, afterKey, quote, key_read, _, member_read⟩ :=
      exists_readMember_of_spelled (reads member List.mem_cons_self) member_spelled
    have others_read := ih (fun other other_mem => reads other (List.mem_cons_of_mem _ other_mem))
      others_spelled fuel (by simpa using enough) (member :: before)
    rw [readMembers, nextMember_of_comma comma quote]
    simp [key_read, member_read, others_read, bind, Except.bind]

theorem readsSpelled_scalar (value : Scalar) : ReadsSpelled budget (.scalar value) := by
  intro text rest spelled
  rw [Spelled] at spelled
  have first : ∀ inside, skipSpace text ≠ '[' :: inside ∧ skipSpace text ≠ '\x7b' :: inside := by
    generalize skipSpace text = visible at spelled
    intro inside
    cases scalarRead_of_read spelled with
    | number numeral =>
      have notList := ne_of_numeral '[' numeral (by decide) (by decide)
      have notObject := ne_of_numeral '\x7b' numeral (by decide) (by decide)
      simp [notList, notObject]
    | _ => simp
  have read (nested : Option (Reader Document)) :
      readValueWith assembly nested text = .ok (.scalar value, rest) := by
    unfold readValueWith
    split
    · rename_i inside opened
      exact absurd opened (first inside).1
    · rename_i inside opened
      exact absurd opened (first inside).2
    · rw [spelled]
      rfl
  cases budget <;> exact read _

theorem readValue_of_opened_list {text inside rest : List Char} {items : List Document}
    (opened : skipSpace text = '[' :: inside)
    (items_read : readItems (readValue assembly budget) (inside.length + 1) true inside =
      .ok (items, rest)) :
    readValue assembly (budget + 1) text = .ok (.list items, rest) := by
  simp [readValue, readValueWith, opened, openBracket, items_read, bind, Except.bind]

theorem readsSpelled_list {items : List Document}
    (reads : ∀ item ∈ items, ReadsSpelled budget item) :
    ReadsSpelled (budget + 1) (.list items) := by
  intro text rest spelled
  cases items with
  | nil =>
    obtain ⟨inside, opened, closed⟩ := spelled
    exact readValue_of_opened_list opened (readItems_closed (nextItem_of_closed closed))
  | cons item items =>
    obtain ⟨inside, behind, opened, item_spelled, others_spelled⟩ := spelled
    obtain ⟨item_reads, others_read⟩ := List.forall_mem_cons.mp reads
    have item_read := item_reads item_spelled
    have behind_length := (readValue_leaves _ _ item_read).length_le
    have enough := length_lt_of_itemsSpelled others_read others_spelled
    have tail := readItems_of_spelled others_read others_spelled inside.length (by omega)
    rw [← readValue_skipSpace] at item_read
    apply readValue_of_opened_list opened
    rw [readItems, nextItem_of_spelled item_spelled]
    simp [item_read, tail, bind, Except.bind]

theorem readValue_of_opened_object {text inside rest : List Char}
    {members : List (String × Document)} (opened : skipSpace text = '\x7b' :: inside)
    (members_read : readMembers (readMember (readValue assembly budget)) (inside.length + 1) true
      [] inside = .ok (members.reverse, rest)) :
    readValue assembly (budget + 1) text = .ok (.object members, rest) := by
  simp [readValue, readValueWith, opened, openBracket, members_read, bind, Except.bind]

theorem readsSpelled_object {members : List (String × Document)}
    (reads : ∀ member ∈ members, ReadsSpelled budget member.2) :
    ReadsSpelled (budget + 1) (.object members) := by
  intro text rest spelled
  cases members with
  | nil =>
    obtain ⟨inside, opened, closed⟩ := spelled
    exact readValue_of_opened_object opened (readMembers_closed (nextMember_of_closed closed))
  | cons member members =>
    obtain ⟨inside, behind, opened, member_spelled, others_spelled⟩ := spelled
    obtain ⟨member_reads, others_read⟩ := List.forall_mem_cons.mp reads
    obtain ⟨content, afterKey, quote, key_read, behind_length, member_read⟩ :=
      exists_readMember_of_spelled member_reads member_spelled
    have enough := length_lt_of_membersSpelled others_read others_spelled
    have tail := readMembers_of_spelled others_read others_spelled inside.length (by omega)
      [member]
    apply readValue_of_opened_object opened
    rw [readMembers, nextMember_of_quote quote]
    simp [key_read, member_read, tail, bind, Except.bind]

/-- A text that spells a document is read as the document, unless it is too deep. -/
theorem readsSpelled {document : Document} {budget : Nat} (depth_le : document.depth ≤ budget) :
    ReadsSpelled budget document := by
  induction document generalizing budget with
  | scalar value => exact readsSpelled_scalar value
  | list items ih =>
    obtain ⟨budget, rfl⟩ := Nat.exists_eq_add_one.mpr (Nat.zero_lt_of_lt depth_le)
    have items_depth := itemsDepth_le_iff.mp (Nat.le_of_succ_le_succ depth_le)
    exact readsSpelled_list fun item item_mem => ih item item_mem (items_depth item item_mem)
  | object members ih =>
    obtain ⟨budget, rfl⟩ := Nat.exists_eq_add_one.mpr (Nat.zero_lt_of_lt depth_le)
    have members_depth := membersDepth_le_iff.mp (Nat.le_of_succ_le_succ depth_le)
    exact readsSpelled_object fun member member_mem =>
      ih member member_mem (members_depth member member_mem)

/-- A whole text that spells a document is read as the document, unless it is too deep; only blanks
may follow. -/
theorem ofText_of_spelled {document : Document} (depth_le : document.depth ≤ nestingLimit)
    {text : String} {rest : List Char} (spelled : document.Spelled text.toList rest)
    (only_blanks : skipSpace rest = []) : ofText text = .ok document := by
  simp [ofText, readText, readAll, readsSpelled depth_le spelled, only_blanks, bind, Except.bind]

end Document
end Json
end PolicyReview
