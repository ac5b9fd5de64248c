import PolicyReview.Proofs.Json.Canonical
import PolicyReview.Proofs.Json.Spelling

/-!
# Documents over several lines

Over several lines a document is written with the same scalars, brackets, commas and colons as
without blanks, and in the same order; only line breaks and spaces stand between them.  So deleting
the blanks outside of string literals leaves the text without blanks, and the text over several
lines spells the document.
-/

namespace PolicyReview
namespace Json

/-- The characters of a text without the blanks outside of string literals. -/
def withoutBlanks : Region → List Char → List Char
  | _, [] => []
  | .outside, c :: text =>
    if Text.isBlankChar c then withoutBlanks .outside text
    else c :: withoutBlanks (Region.outside.next c) text
  | region, c :: text => c :: withoutBlanks (region.next c) text

theorem withoutBlanks_blank {c : Char} (blank : Text.isBlankChar c = true) (text : List Char) :
    withoutBlanks .outside (c :: text) = withoutBlanks .outside text := by
  rw [withoutBlanks, if_pos blank]

theorem withoutBlanks_cons {c : Char} (visible : c ≠ '"' ∧ Text.isBlankChar c = false)
    (text : List Char) :
    withoutBlanks .outside (c :: text) = c :: withoutBlanks .outside text := by
  simp [withoutBlanks, Region.next, visible]

theorem withoutBlanks_append {front : List Char}
    (visible : ∀ c ∈ front, c ≠ '"' ∧ Text.isBlankChar c = false) (text : List Char) :
    withoutBlanks .outside (front ++ text) = front ++ withoutBlanks .outside text := by
  induction front with
  | nil => rfl
  | cons c front ih =>
    obtain ⟨c_visible, front_visible⟩ := List.forall_mem_cons.mp visible
    rw [List.cons_append, withoutBlanks_cons c_visible, ih front_visible, List.cons_append]

theorem folds_withoutBlanks : Region.Folds withoutBlanks List.cons where
  literal _ _ := rfl
  escape _ _ := rfl

/-- Nothing is deleted from a literal. -/
theorem withoutBlanks_writeString (content rest : List Char) :
    withoutBlanks .outside (writeString content rest) =
      writeString content (withoutBlanks .outside rest) := by
  rw [writeString, withoutBlanks, if_neg (by decide), Region.next, if_pos rfl,
    folds_withoutBlanks.content, List.foldr_cons_eq_append', writeString]

theorem Scalar.withoutBlanks_write (value : Scalar) (rest : List Char) :
    withoutBlanks .outside (value.write rest) = value.write (withoutBlanks .outside rest) := by
  cases value with
  | null =>
    rw [Document.scalar_write_append, withoutBlanks_append (visible_of_all (by decide)),
      ← Document.scalar_write_append]
  | bool value =>
    rw [Document.scalar_write_append,
      withoutBlanks_append (visible_of_all (by cases value <;> decide)),
      ← Document.scalar_write_append]
  | number value =>
    exact withoutBlanks_append
      (fun c c_mem => (visible_of_isNumeralChar (value.numeric_text c c_mem)).2) rest
  | string value => exact withoutBlanks_writeString _ rest

/-- The blank inside the literal stays. -/
example : withoutBlanks .outside ['[', '\n', ' ', '"', ' ', '"', '\n', ']'] =
    ['[', '"', ' ', '"', ']'] := by
  decide

namespace Document

namespace Layout

variable {lines text : List Char → List Char}

theorem withoutBlanks (layout : Layout lines text) (rest : List Char) :
    withoutBlanks .outside (lines rest) = text (withoutBlanks .outside rest) := by
  have visible : ∀ c ∈ marks, c ≠ '"' ∧ Text.isBlankChar c = false :=
    visible_of_all (by decide)
  have blank : ∀ c ∈ lineBlanks, Text.isBlankChar c = true := List.all_eq_true.mp (by decide)
  induction layout with
  | done => rfl
  | scalar value _ ih => rw [value.withoutBlanks_write, ih]
  | mark isMark _ ih => rw [withoutBlanks_cons (visible _ isMark), ih]
  | blank isBlank _ ih => rw [withoutBlanks_blank (blank _ isBlank), ih]

theorem append (layout : Layout lines text) (rest more : List Char) :
    lines (rest ++ more) = lines rest ++ more := by
  induction layout with
  | done => rfl
  | scalar value _ ih =>
    simp only [ih]
    rw [scalar_write_append, ← List.append_assoc, ← scalar_write_append]
  | mark _ _ ih => simp only [ih, List.cons_append]
  | blank _ _ ih => simp only [ih, List.cons_append]

end Layout

/-- Deleting the blanks outside of string literals from a document over several lines leaves the
document without blanks. -/
theorem withoutBlanks_writeLines (document : Document) (level : Nat) (rest : List Char) :
    withoutBlanks .outside (document.writeLines level rest) =
      document.write (withoutBlanks .outside rest) :=
  (Layout.done.writeLines document level).withoutBlanks rest

theorem writeLines_append (document : Document) (level : Nat) (rest more : List Char) :
    document.writeLines level (rest ++ more) = document.writeLines level rest ++ more :=
  (Layout.done.writeLines document level).append rest more

theorem suffix_writeLines (document : Document) (level : Nat) (rest : List Char) :
    rest <:+ document.writeLines level rest :=
  ⟨_, (document.writeLines_append level [] rest).symm⟩

theorem suffix_newLine (level : Nat) (rest : List Char) : rest <:+ newLine level rest :=
  (List.suffix_append _ rest).trans (List.suffix_cons _ _)

theorem suffix_writeItemLines (items : List Document) (level : Nat) (rest : List Char) :
    rest <:+ writeItemLines level items rest := by
  induction items with
  | nil => exact List.suffix_rfl
  | cons item items ih =>
    exact (ih.trans (item.suffix_writeLines level _)).trans
      ((suffix_newLine level _).trans (List.suffix_cons _ _))

/-- A list over several lines ends with its bracket. -/
theorem bracket_suffix_writeLines (items : List Document) (level : Nat) (rest : List Char) :
    ']' :: rest <:+ (list items).writeLines level rest := by
  cases items with
  | nil => exact List.suffix_cons _ _
  | cons item items =>
    exact (((suffix_newLine level _).trans (suffix_writeItemLines items (level + 1) _)).trans
      (item.suffix_writeLines (level + 1) _)).trans
      ((suffix_newLine (level + 1) _).trans (List.suffix_cons _ _))

@[simp]
theorem skipSpace_newLine (level : Nat) (text : List Char) :
    skipSpace (newLine level text) = skipSpace text := by
  have indented : ∀ count, skipSpace (List.replicate count ' ' ++ text) = skipSpace text := by
    intro count
    induction count with
    | zero => rfl
    | succ count ih => exact ih
  exact indented (2 * level)

theorem skipSpace_space (text : List Char) : skipSpace (' ' :: text) = skipSpace text :=
  rfl

/-- Blanks in front of a document are no matter. -/
theorem Spelled.of_skipSpace_eq {document : Document} {text text' rest : List Char}
    (same : skipSpace text = skipSpace text') (spelled : document.Spelled text' rest) :
    document.Spelled text rest := by
  cases document with
  | scalar value =>
    rw [Spelled] at spelled ⊢
    rwa [same]
  | list items =>
    cases items <;>
    · rw [Spelled] at spelled ⊢
      rwa [same]
  | object members =>
    cases members <;>
    · rw [Spelled] at spelled ⊢
      rwa [same]

theorem Spelled.of_newLine {document : Document} {text rest : List Char} (level : Nat)
    (spelled : document.Spelled text rest) : document.Spelled (newLine level text) rest :=
  spelled.of_skipSpace_eq (skipSpace_newLine level text)

theorem endsNumeral_newLine (level : Nat) (rest : List Char) :
    EndsNumeral (newLine level rest) :=
  endsNumeral_cons (by decide) _

/-- A document over several lines is spelled in front of what cannot continue a number. -/
def SpelledByLines (document : Document) : Prop :=
  ∀ (level : Nat) ⦃rest : List Char⦄, EndsNumeral rest →
    document.Spelled (document.writeLines level rest) rest

theorem spelledByLines_scalar (value : Scalar) : SpelledByLines (.scalar value) := by
  intro level rest ends
  obtain ⟨c, more, text_eq, notSpace, _⟩ := value.exists_write_eq rest
  have value_read := value.read_write ends
  rw [Spelled, writeLines, text_eq, skipSpace_cons notSpace, ← text_eq, value_read]

theorem itemsSpelled_writeItemLines {items : List Document}
    (spelled : ∀ item ∈ items, SpelledByLines item) (level outer : Nat) (rest : List Char) :
    ItemsSpelled items (writeItemLines level items (newLine outer (']' :: rest))) rest ∧
      EndsNumeral (writeItemLines level items (newLine outer (']' :: rest))) := by
  induction items with
  | nil =>
    refine ⟨?_, endsNumeral_newLine _ _⟩
    rw [ItemsSpelled, writeItemLines, skipSpace_newLine, skipSpace_cons (by decide)]
  | cons item items ih =>
    obtain ⟨item_spelled, others_spelled⟩ := List.forall_mem_cons.mp spelled
    obtain ⟨tail_spelled, tail_ends⟩ := ih others_spelled
    exact ⟨⟨_, _, skipSpace_cons (by decide) _, (item_spelled level tail_ends).of_newLine level,
      tail_spelled⟩, endsNumeral_cons (by decide) _⟩

theorem spelledByLines_list {items : List Document}
    (spelled : ∀ item ∈ items, SpelledByLines item) : SpelledByLines (.list items) := by
  intro level rest _
  cases items with
  | nil => exact ⟨_, skipSpace_cons (by decide) _, skipSpace_cons (by decide) _⟩
  | cons item items =>
    obtain ⟨item_spelled, others_spelled⟩ := List.forall_mem_cons.mp spelled
    obtain ⟨tail_spelled, tail_ends⟩ :=
      itemsSpelled_writeItemLines others_spelled (level + 1) level rest
    exact ⟨_, _, skipSpace_cons (by decide) _,
      (item_spelled (level + 1) tail_ends).of_newLine (level + 1), tail_spelled⟩

theorem memberSpelled_writeMemberLine {member : String × Document}
    (spelled : SpelledByLines member.2) (level : Nat) {rest : List Char}
    (ends : EndsNumeral rest) :
    MemberSpelled member (newLine level (writeMemberLine level member rest)) rest := by
  obtain ⟨key, value⟩ := member
  refine ⟨_, _, _, ?_, readString_write key _, afterColon_colon _,
    Spelled.of_skipSpace_eq (skipSpace_space _) (spelled level ends)⟩
  rw [skipSpace_newLine, writeMemberLine, writeString, skipSpace_cons (by decide)]

theorem membersSpelled_writeMemberLines {members : List (String × Document)}
    (spelled : ∀ member ∈ members, SpelledByLines member.2) (level outer : Nat)
    (rest : List Char) :
    MembersSpelled members (writeMemberLines level members (newLine outer ('\x7d' :: rest))) rest ∧
      EndsNumeral (writeMemberLines level members (newLine outer ('\x7d' :: rest))) := by
  induction members with
  | nil =>
    refine ⟨?_, endsNumeral_newLine _ _⟩
    rw [MembersSpelled, writeMemberLines, skipSpace_newLine, skipSpace_cons (by decide)]
  | cons member members ih =>
    obtain ⟨member_spelled, others_spelled⟩ := List.forall_mem_cons.mp spelled
    obtain ⟨tail_spelled, tail_ends⟩ := ih others_spelled
    exact ⟨⟨_, _, skipSpace_cons (by decide) _,
      memberSpelled_writeMemberLine member_spelled level tail_ends, tail_spelled⟩,
      endsNumeral_cons (by decide) _⟩

theorem spelledByLines_object {members : List (String × Document)}
    (spelled : ∀ member ∈ members, SpelledByLines member.2) :
    SpelledByLines (.object members) := by
  intro level rest _
  cases members with
  | nil => exact ⟨_, skipSpace_cons (by decide) _, skipSpace_cons (by decide) _⟩
  | cons member members =>
    obtain ⟨member_spelled, others_spelled⟩ := List.forall_mem_cons.mp spelled
    obtain ⟨tail_spelled, tail_ends⟩ :=
      membersSpelled_writeMemberLines others_spelled (level + 1) level rest
    exact ⟨_, _, skipSpace_cons (by decide) _,
      memberSpelled_writeMemberLine member_spelled (level + 1) tail_ends, tail_spelled⟩

theorem spelledByLines (document : Document) : document.SpelledByLines := by
  induction document with
  | scalar value => exact spelledByLines_scalar value
  | list items ih => exact spelledByLines_list ih
  | object members ih => exact spelledByLines_object ih

/-- Without the blanks outside of string literals, the text over several lines is the text without
blanks. -/
theorem withoutBlanks_prettyText (document : Document) :
    withoutBlanks .outside (document.prettyText ++ "\n").toList = document.text.toList := by
  simp only [prettyText, text, String.toList_append, String.toList_ofList]
  rw [← writeLines_append, withoutBlanks_writeLines]
  rfl

/-- The text of a list over several lines does not end with a line break. -/
theorem getLast?_prettyText (items : List Document) :
    (list items).prettyText.toList.getLast? = some ']' := by
  obtain ⟨front, writeLines_eq⟩ := bracket_suffix_writeLines items 0 []
  rw [prettyText, String.toList_ofList, ← writeLines_eq, List.getLast?_append]
  rfl

/-- The text of a document over several lines, ended by a line break, is read as the document,
unless it is too deep. -/
theorem ofText_prettyText {document : Document} (depth_le : document.depth ≤ nestingLimit) :
    ofText (document.prettyText ++ "\n") = .ok document := by
  have spelled := document.spelledByLines 0 (endsNumeral_newLine 0 [])
  refine ofText_of_spelled depth_le ?_ (skipSpace_newLine 0 [])
  rw [prettyText, String.toList_append, String.toList_ofList]
  rwa [← document.writeLines_append 0 []]

end Document
end Json
end PolicyReview
