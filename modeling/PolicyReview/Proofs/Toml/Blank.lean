import PolicyReview.Text.Blank
import PolicyReview.Toml.Document
import Mathlib.Data.List.TakeDrop

/-!
# Blank documents

Fewer characters are blank in a document than in other texts.  A text of blank characters is a
document just when its lines hold spaces and tabs only, and then it is a document without entries:
what is dropped from the front leaves an end of the text, and no entry begins with a blank
character.
-/

namespace PolicyReview
namespace Toml

/-- Lines that hold spaces and tabs only. -/
inductive BlankLines : List Char → Prop where
  | nil : BlankLines []
  | space {c : Char} {text : List Char} (space : isSpace c = true) (blank : BlankLines text) :
    BlankLines (c :: text)
  | lineFeed {text : List Char} (blank : BlankLines text) : BlankLines ('\n' :: text)
  | carriageReturn {text : List Char} (blank : BlankLines text) :
    BlankLines ('\r' :: '\n' :: text)

theorem blankLines_skipSpace_iff {text : List Char} :
    BlankLines (skipSpace text) ↔ BlankLines text := by
  induction text with
  | nil => rfl
  | cons c text ih =>
    rw [skipSpace, List.dropWhile_cons]
    split
    · rename_i space
      refine ih.trans ⟨.space space, fun blank => ?_⟩
      cases blank with
      | space _ blank => exact blank
      | lineFeed => cases space
      | carriageReturn => cases space
    · rfl

theorem blankLines_iff_of_lineEnd? {text rest : List Char} (ends : lineEnd? text = some rest) :
    BlankLines text ↔ BlankLines rest := by
  unfold lineEnd? at ends
  split at ends
  · cases ends
    refine ⟨?_, .lineFeed⟩
    rintro (_ | ⟨⟨⟩, _⟩ | blank)
    exact blank
  · cases ends
    refine ⟨?_, .carriageReturn⟩
    rintro (_ | ⟨⟨⟩, _⟩ | _ | blank)
    exact blank
  · cases ends

theorem blankLines_iff_eq_nil {text : List Char} (no_end : lineEnd? text = none)
    (no_space : text.head?.all (!isSpace ·)) : BlankLines text ↔ text = [] := by
  constructor
  · intro blank
    cases blank with
    | nil => rfl
    | space space => simp [space] at no_space
    | lineFeed => cases no_end
    | carriageReturn => cases no_end
  · rintro rfl
    exact .nil

theorem skipSpace_suffix (text : List Char) : skipSpace text <:+ text :=
  List.dropWhile_suffix isSpace

theorem head?_skipSpace (text : List Char) : (skipSpace text).head?.all (!isSpace ·) := by
  have notSpace := List.head?_dropWhile_not isSpace text
  rw [skipSpace]
  cases first : (text.dropWhile isSpace).head? with
  | none => rfl
  | some c =>
    rw [first] at notSpace
    simpa using notSpace

theorem lineEnd?_suffix {text rest : List Char} (ends : lineEnd? text = some rest) :
    rest <:+ text := by
  unfold lineEnd? at ends
  split at ends
  · cases ends
    exact List.suffix_cons _ _
  · cases ends
    exact (List.suffix_cons _ _).trans (List.suffix_cons _ _)
  · cases ends

theorem length_lt_of_lineEnd? {text rest : List Char} (ends : lineEnd? text = some rest) :
    rest.length < text.length := by
  unfold lineEnd? at ends
  split at ends <;> cases ends <;> simp only [List.length_cons] <;> omega

theorem skipLines_suffix (fuel : Nat) (text : List Char) : skipLines fuel text <:+ text := by
  induction fuel generalizing text with
  | zero => exact List.suffix_rfl
  | succ fuel ih =>
    rw [skipLines]
    split
    · rename_i rest ends
      exact (ih rest).trans ((lineEnd?_suffix ends).trans (skipSpace_suffix text))
    · split
      · rename_i rest comment_eq
        have comment_suffix : skipComment rest <:+ skipSpace text :=
          (List.dropWhile_suffix isPlain).trans (comment_eq ▸ List.suffix_cons '#' rest)
        exact (ih _).trans (comment_suffix.trans (skipSpace_suffix text))
      · exact skipSpace_suffix text

/-- A character of a key without quotes is not blank. -/
theorem isBlankChar_of_isBareKeyChar {c : Char} (bare : isBareKeyChar c = true) :
    Text.isBlankChar c = false := by
  have range : 45 ≤ c.toNat ∧ c.toNat ≤ 122 := by
    have some_kind :
        (c.isUpper || c.isLower || c.isDigit || c == '_' || c == '-') = true := bare
    simp only [Bool.or_eq_true, beq_iff_eq] at some_kind
    rcases some_kind with (((upper | lower) | digit) | rfl) | rfl
    · have upper_range : 65 ≤ c.toNat ∧ c.toNat ≤ 90 := of_decide_eq_true upper
      omega
    · have lower_range : 97 ≤ c.toNat ∧ c.toNat ≤ 122 :=
        (Bool.and_eq_true_iff.mp lower).imp of_decide_eq_true of_decide_eq_true
      omega
    · have digit_range : 48 ≤ c.toNat ∧ c.toNat ≤ 57 :=
        (Bool.and_eq_true_iff.mp digit).imp of_decide_eq_true of_decide_eq_true
      omega
    · decide
    · decide
  simp [Text.isBlankChar, Text.inRanges, Text.blankRanges]
  omega

section Blank

variable {text : List Char} (blank : ∀ c ∈ text, Text.isBlankChar c = true)
include blank

/-- A blank text is dropped as a whole just when its lines hold spaces and tabs only. -/
theorem skipLines_eq_nil_iff {fuel : Nat} (enough : text.length < fuel) :
    skipLines fuel text = [] ↔ BlankLines text := by
  induction fuel generalizing text with
  | zero => cases enough
  | succ fuel ih =>
    have visible_blank : ∀ c ∈ skipSpace text, Text.isBlankChar c = true := fun c c_mem =>
      blank c ((skipSpace_suffix text).subset c_mem)
    rw [← blankLines_skipSpace_iff, skipLines]
    split
    · rename_i rest ends
      have shorter := length_lt_of_lineEnd? ends
      have visible_length := (skipSpace_suffix text).length_le
      rw [blankLines_iff_of_lineEnd? ends]
      exact ih (fun c c_mem => visible_blank c ((lineEnd?_suffix ends).subset c_mem)) (by omega)
    · rename_i no_end
      split
      · rename_i comment_eq
        rw [comment_eq] at visible_blank
        exact absurd (visible_blank '#' List.mem_cons_self) (by decide)
      · exact (blankLines_iff_eq_nil no_end (head?_skipSpace text)).symm

/-- No key begins with a blank character. -/
theorem readKey?_of_blank : readKey? text = none := by
  have notBare : text.takeWhile isBareKeyChar = [] := by
    cases text with
    | nil => rfl
    | cons c text =>
      apply List.takeWhile_cons_of_neg
      intro bare
      have c_blank := blank c List.mem_cons_self
      simp [isBlankChar_of_isBareKeyChar bare] at c_blank
  unfold readKey?
  split
  · exact absurd (blank '"' List.mem_cons_self) (by decide)
  · exact absurd (blank '\'' List.mem_cons_self) (by decide)
  · simp [notBare]

theorem readEntry?_of_blank (draft : Draft) : readEntry? draft text = none := by
  have visible_blank : ∀ c ∈ skipSpace text, Text.isBlankChar c = true := fun c c_mem =>
    blank c ((skipSpace_suffix text).subset c_mem)
  unfold readEntry?
  split
  · exact absurd (blank '[' List.mem_cons_self) (by decide)
  · exact absurd (blank '[' List.mem_cons_self) (by decide)
  · rw [readKeyValue?, readKeys?, pathLimit, readPath?, readKey?_of_blank visible_blank]
    rfl

theorem readLines?_of_blank (fuel : Nat) (draft : Draft) :
    readLines? (fuel + 1) draft text = if skipFiller text = [] then some draft else none := by
  have filler_blank : ∀ c ∈ skipFiller text, Text.isBlankChar c = true := fun c c_mem =>
    blank c ((skipLines_suffix _ text).subset c_mem)
  rw [readLines?]
  split
  · rename_i nothing
    rw [if_pos nothing]
  · rename_i something
    rw [if_neg something, readEntry?_of_blank filler_blank]
    rfl

theorem dropByteOrderMark_of_blank : dropByteOrderMark text = text := by
  unfold dropByteOrderMark
  split
  · exact absurd (blank '\ufeff' List.mem_cons_self) (by decide)
  · rfl

end Blank

/-- A blank text is a document without entries or none. -/
theorem ofText?_of_blank {text : String} (blank : Text.isBlank text = true) :
    (BlankLines text.toList ∧ ofText? text = some []) ∨
      (¬ BlankLines text.toList ∧ ofText? text = none) := by
  have all_blank : ∀ c ∈ text.toList, Text.isBlankChar c = true := List.all_eq_true.mp blank
  rw [← skipLines_eq_nil_iff all_blank (Nat.lt_succ_self _), ofText?,
    dropByteOrderMark_of_blank all_blank, readLines?_of_blank all_blank, skipFiller]
  split
  · rename_i nothing
    exact .inl ⟨nothing, rfl⟩
  · rename_i something
    exact .inr ⟨something, rfl⟩

end Toml
end PolicyReview
