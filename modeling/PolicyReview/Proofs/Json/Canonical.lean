import PolicyReview.Proofs.Json.Written
import PolicyReview.Proofs.Text.ByteOrder

/-!
# Canonical texts

In a canonical text the names of the members of every object increase strictly in the order of their
bytes, and no blank stands outside of string literals.  Every document is written without such
blanks; the order of the names is up to the document.
-/

namespace PolicyReview
namespace Json

namespace Document

mutual

/-- The names of the members of every object increase strictly in the order of their bytes. -/
def NamesIncrease : Document → Prop
  | .scalar _ => True
  | .list items => ItemsNamesIncrease items
  | .object members =>
    members.Pairwise (fun before after => Text.utf8Bytes before.1 < Text.utf8Bytes after.1) ∧
      MembersNamesIncrease members

/-- Names increase in every item of a list. -/
def ItemsNamesIncrease : List Document → Prop
  | [] => True
  | item :: items => item.NamesIncrease ∧ ItemsNamesIncrease items

/-- Names increase in the value of every member of an object. -/
def MembersNamesIncrease : List (String × Document) → Prop
  | [] => True
  | (_, value) :: members => value.NamesIncrease ∧ MembersNamesIncrease members

end

theorem itemsNamesIncrease_iff {items : List Document} :
    ItemsNamesIncrease items ↔ ∀ item ∈ items, item.NamesIncrease := by
  induction items with
  | nil => simp [ItemsNamesIncrease]
  | cons item items ih => rw [ItemsNamesIncrease, ih, List.forall_mem_cons]

theorem membersNamesIncrease_iff {members : List (String × Document)} :
    MembersNamesIncrease members ↔ ∀ member ∈ members, member.2.NamesIncrease := by
  induction members with
  | nil => simp [MembersNamesIncrease]
  | cons member members ih =>
    obtain ⟨key, value⟩ := member
    rw [MembersNamesIncrease, ih, List.forall_mem_cons]

end Document

/-- Where a character of a text stands with regard to string literals. -/
inductive Region where
  | outside
  /-- Inside a literal. -/
  | literal
  /-- Inside a literal, behind the backslash of an escape. -/
  | escape

/-- The region behind a character. -/
def Region.next : Region → Char → Region
  | .outside, c => if c = '"' then .literal else .outside
  | .literal, c => if c = '"' then .outside else if c = '\\' then .escape else .literal
  | .escape, _ => .literal

/-- The characters of a text that stand outside of string literals, with the opening quotes of the
literals among them. -/
def outsideLiterals : Region → List Char → List Char
  | _, [] => []
  | .outside, c :: text => c :: outsideLiterals (Region.outside.next c) text
  | region, c :: text => outsideLiterals (region.next c) text

theorem outsideLiterals_of_ne {c : Char} (notQuote : c ≠ '"') (text : List Char) :
    outsideLiterals .outside (c :: text) = c :: outsideLiterals .outside text := by
  rw [outsideLiterals, Region.next, if_neg notQuote]

theorem hexDigits_plain {code : Nat} (small : code < 32) :
    ∀ c ∈ Text.hexDigits 2 code, c ≠ '"' ∧ c ≠ '\\' := by
  have checked : ∀ code < 32,
      (Text.hexDigits 2 code).all (fun c => c != '"' && c != '\\') = true := by
    decide
  simpa using checked code small

/-- What is written for a character of a literal is plain, but for an escape in front. -/
theorem exists_escapeChar_eq (c : Char) : ∃ plain, (∀ c ∈ plain, c ≠ '"' ∧ c ≠ '\\') ∧
    (escapeChar c = plain ∨ ∃ letter, escapeChar c = '\\' :: letter :: plain) := by
  unfold escapeChar
  cases short : escapeLetter? c with
  | some letter => exact ⟨[], List.forall_mem_nil _, .inr ⟨letter, rfl⟩⟩
  | none =>
    by_cases control : c < ' '
    · refine ⟨'0' :: '0' :: Text.hexDigits 2 c.toNat, ?_, .inr ⟨'u', if_pos control⟩⟩
      simpa using hexDigits_plain control
    · have not_quote : c ≠ '"' := by
        rintro rfl
        cases short
      have not_backslash : c ≠ '\\' := by
        rintro rfl
        cases short
      exact ⟨[c], List.forall_mem_singleton.mpr ⟨not_quote, not_backslash⟩, .inl (if_neg control)⟩

/-- Inside of literals the function takes the characters of a text one by one. -/
structure Region.Folds {β : Type} (f : Region → List Char → β) (g : Char → β → β) : Prop where
  literal (c : Char) (text : List Char) : f .literal (c :: text) = g c (f (literal.next c) text)
  escape (c : Char) (text : List Char) : f .escape (c :: text) = g c (f .literal text)

namespace Region.Folds

variable {β : Type} {f : Region → List Char → β} {g : Char → β → β}

theorem plain (folds : Folds f g) {inside : List Char} (plain : ∀ c ∈ inside, c ≠ '"' ∧ c ≠ '\\')
    (text : List Char) : f .literal (inside ++ text) = inside.foldr g (f .literal text) := by
  induction inside with
  | nil => rfl
  | cons c inside ih =>
    obtain ⟨⟨notQuote, notBackslash⟩, inside_plain⟩ := List.forall_mem_cons.mp plain
    rw [List.cons_append, folds.literal, next, if_neg notQuote, if_neg notBackslash,
      ih inside_plain, List.foldr_cons]

/-- What is written for a character of a literal stays inside the literal. -/
theorem escapeChar (folds : Folds f g) (c : Char) (text : List Char) :
    f .literal (Json.escapeChar c ++ text) = (Json.escapeChar c).foldr g (f .literal text) := by
  obtain ⟨plain, isPlain, written | ⟨letter, written⟩⟩ := exists_escapeChar_eq c
  · rw [written, folds.plain isPlain]
  · rw [written, List.cons_append, List.cons_append, folds.literal, next, if_neg (by decide),
      if_pos rfl, folds.escape, folds.plain isPlain, List.foldr_cons, List.foldr_cons]

/-- The content of a literal ends with its closing quote. -/
theorem content (folds : Folds f g) (content rest : List Char) :
    f .literal (content.flatMap Json.escapeChar ++ '"' :: rest) =
      (content.flatMap Json.escapeChar).foldr g (g '"' (f .outside rest)) := by
  induction content with
  | nil => exact folds.literal '"' rest
  | cons c content ih =>
    rw [List.flatMap_cons, List.append_assoc, folds.escapeChar, ih, List.foldr_append]

end Region.Folds

theorem folds_outsideLiterals : Region.Folds outsideLiterals fun _ outside => outside where
  literal _ _ := rfl
  escape _ _ := rfl

theorem outsideLiterals_writeString (content rest : List Char) :
    outsideLiterals .outside (writeString content rest) =
      '"' :: outsideLiterals .outside rest := by
  rw [writeString, outsideLiterals, Region.next, if_pos rfl, folds_outsideLiterals.content,
    List.foldr_fixed]

/-- The blank inside the literal is no matter, nor is its escaped quote. -/
example :
    outsideLiterals .outside ['"', ' ', '\\', '"', '"', ':', ' ', '1'] = ['"', ':', ' ', '1'] := by
  decide

/-- Characters can be checked one by one for quotes and blanks. -/
theorem visible_of_all {text : List Char}
    (checked : text.all (fun c => c != '"' && !Text.isBlankChar c) = true) :
    ∀ c ∈ text, c ≠ '"' ∧ Text.isBlankChar c = false := by
  simpa using checked

/-- No blank stands outside of string literals. -/
def Compact (text : List Char) : Prop :=
  ∀ c ∈ outsideLiterals .outside text, Text.isBlankChar c = false

namespace Compact

theorem nil : Compact [] :=
  List.forall_mem_nil _

theorem cons {c : Char} {text : List Char} (notQuote : c ≠ '"')
    (notBlank : Text.isBlankChar c = false) (compact : Compact text) : Compact (c :: text) := by
  rw [Compact, outsideLiterals_of_ne notQuote]
  exact List.forall_mem_cons.mpr ⟨notBlank, compact⟩

theorem append {before after : List Char}
    (visible : ∀ c ∈ before, c ≠ '"' ∧ Text.isBlankChar c = false) (compact : Compact after) :
    Compact (before ++ after) := by
  induction before with
  | nil => exact compact
  | cons c before ih =>
    obtain ⟨⟨notQuote, notBlank⟩, before_visible⟩ := List.forall_mem_cons.mp visible
    exact .cons notQuote notBlank (ih before_visible)

end Compact

theorem compact_writeString (content : List Char) {rest : List Char} (compact : Compact rest) :
    Compact (writeString content rest) := by
  rw [Compact, outsideLiterals_writeString]
  exact List.forall_mem_cons.mpr ⟨by decide, compact⟩

theorem Scalar.compact_write (value : Scalar) {rest : List Char} (compact : Compact rest) :
    Compact (value.write rest) := by
  cases value with
  | null =>
    rw [Document.scalar_write_append]
    exact .append (visible_of_all (by decide)) compact
  | bool value =>
    rw [Document.scalar_write_append]
    exact .append (visible_of_all (by cases value <;> decide)) compact
  | number value =>
    exact .append (fun c c_mem => (visible_of_isNumeralChar (value.numeric_text c c_mem)).2) compact
  | string value => exact compact_writeString _ compact

namespace Document

theorem compact_write (document : Document) {rest : List Char} (compact : Compact rest) :
    Compact (document.write rest) := by
  have visible : ∀ c ∈ marks, c ≠ '"' ∧ Text.isBlankChar c = false :=
    visible_of_all (by decide)
  exact write_induction Scalar.compact_write
    (fun c c_mark _ => .cons (visible c c_mark).1 (visible c c_mark).2) document compact

/-- Documents are written without blanks outside of string literals. -/
theorem compact_text (document : Document) : Compact document.text.toList := by
  rw [text, String.toList_ofList]
  exact document.compact_write .nil

end Document
end Json
end PolicyReview
