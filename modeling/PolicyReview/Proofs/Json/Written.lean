import PolicyReview.Proofs.Json.Reader
import PolicyReview.Text.Blank

/-!
# What documents are written with

A number is written with digits, signs, points and exponent letters.  A document is written by
putting scalars, brackets, commas and colons in front of a text, over several lines with line breaks
and spaces between them.  So a property of texts that each of these keeps is kept by every document.
-/

namespace PolicyReview

/-- The character may stand in a written number. -/
def isNumeralChar (c : Char) : Bool :=
  c.isDigit || c == '-' || c == '+' || c == '.' || c == 'e'

theorem isNumeralChar_of_isDigit {c : Char} (digit : c.isDigit = true) :
    isNumeralChar c = true := by
  simp [isNumeralChar, digit]

/-- A character of a number is above the space, no quote and not blank. -/
theorem visible_of_isNumeralChar {c : Char} (numeral : isNumeralChar c = true) :
    ' ' ≤ c ∧ c ≠ '"' ∧ Text.isBlankChar c = false := by
  simp only [isNumeralChar, Bool.or_eq_true, beq_iff_eq] at numeral
  rcases numeral with (((digit | rfl) | rfl) | rfl) | rfl
  · have range : 48 ≤ c.toNat ∧ c.toNat ≤ 57 := by
      simpa [Char.isDigit, UInt32.le_iff_toNat_le] using digit
    refine ⟨show 32 ≤ c.toNat by omega, ?_, ?_⟩
    · rintro rfl
      exact absurd range (by decide)
    · simp [Text.isBlankChar, Text.inRanges, Text.blankRanges]
      omega
  all_goals decide

/-- The text is made of the characters of numbers. -/
def Numeric (text : List Char) : Prop :=
  ∀ c ∈ text, isNumeralChar c = true

namespace Numeric

theorem nil : Numeric [] :=
  List.forall_mem_nil _

theorem cons {c : Char} {text : List Char} (numeral : isNumeralChar c = true)
    (numeric : Numeric text) : Numeric (c :: text) :=
  List.forall_mem_cons.mpr ⟨numeral, numeric⟩

theorem append {before after : List Char} (before_numeric : Numeric before)
    (after_numeric : Numeric after) : Numeric (before ++ after) :=
  List.forall_mem_append.mpr ⟨before_numeric, after_numeric⟩

theorem of_isDigit {digits : List Char} (isDigit : ∀ c ∈ digits, c.isDigit = true) :
    Numeric digits :=
  fun c c_mem => isNumeralChar_of_isDigit (isDigit c c_mem)

theorem toDigits (value : Nat) : Numeric (Nat.toDigits 10 value) :=
  of_isDigit (Json.digitRun_toDigits value).isDigit

end Numeric

namespace Decimal

variable {d : Decimal}

theorem numeric_positionalText (digits_numeric : Numeric d.digits) : Numeric d.positionalText := by
  have zeros_numeric (zeros : Nat) : Numeric (List.replicate zeros '0') :=
    .of_isDigit (isDigit_zeros zeros)
  unfold positionalText
  split
  · exact .cons (by decide) (.cons (by decide) (.append (zeros_numeric _) digits_numeric))
  · dsimp only
    split
    · exact .append (.append digits_numeric (zeros_numeric _))
        (.cons (by decide) (.cons (by decide) .nil))
    · apply Numeric.append fun c c_mem => digits_numeric c (List.mem_of_mem_take c_mem)
      exact .cons (by decide) fun c c_mem => digits_numeric c (List.mem_of_mem_drop c_mem)

theorem numeric_exponentText (exponent : Int) : Numeric (exponentText exponent) := by
  unfold exponentText
  apply Numeric.cons _ (Numeric.toDigits _)
  split <;> decide

theorem numeric_scientificText (digits_numeric : Numeric d.digits) : Numeric d.scientificText := by
  unfold scientificText
  split
  · exact .cons (by decide) .nil
  · rename_i digit digits_eq
    rw [digits_eq] at digits_numeric
    exact .cons (digits_numeric digit List.mem_cons_self)
      (.cons (by decide) (numeric_exponentText _))
  · rename_i digit more _ digits_eq
    rw [digits_eq] at digits_numeric
    obtain ⟨digit_numeral, more_numeric⟩ := List.forall_mem_cons.mp digits_numeric
    exact .cons digit_numeral (.cons (by decide)
      (.append more_numeric (.cons (by decide) (numeric_exponentText _))))

theorem numeric_text (layout : Layout) (digits_numeric : Numeric d.digits) :
    Numeric (d.text layout) := by
  unfold text
  split
  · exact .cons (by decide) (.cons (by decide) (.cons (by decide) .nil))
  · split
    · exact numeric_positionalText digits_numeric
    · exact numeric_scientificText digits_numeric

end Decimal

theorem Binary64.numeric_finiteText {x : Binary64} (finite : x.isFinite = true)
    (layout : Decimal.Layout) : Numeric (x.finiteText layout) := by
  have digits_numeric : Numeric (x.decimal layout.tie).digits := by
    by_cases zero : x.code = 0
    · rw [decimal, if_pos zero]
      exact .nil
    · exact .of_isDigit (spells_decimal finite zero layout.tie).trimmed.isDigit
  unfold finiteText
  split
  · exact .cons (by decide) (Decimal.numeric_text layout digits_numeric)
  · exact Decimal.numeric_text layout digits_numeric

namespace Json

theorem Number.numeric_text (value : Number) : Numeric value.text := by
  cases value with
  | natural value => exact .toDigits _
  | negative value isNegative => exact .cons (by decide) (.toDigits _)
  | float value isFinite => exact Binary64.numeric_finiteText isFinite _

/-- Brackets, commas and colons. -/
def marks : List Char :=
  ['[', ']', '\x7b', '\x7d', ',', ':']

namespace Document

/-- The blanks that stand between the parts of a document over several lines. -/
def lineBlanks : List Char :=
  ['\n', ' ']

/-- Two ways to put the same scalars and marks in front of a text, the first with line breaks and
spaces between them. -/
inductive Layout : (List Char → List Char) → (List Char → List Char) → Prop where
  | done : Layout id id
  | scalar (value : Scalar) {lines text : List Char → List Char} (layout : Layout lines text) :
    Layout (fun rest => value.write (lines rest)) fun rest => value.write (text rest)
  | mark {c : Char} (isMark : c ∈ marks) {lines text : List Char → List Char}
    (layout : Layout lines text) : Layout (fun rest => c :: lines rest) fun rest => c :: text rest
  | blank {c : Char} (isBlank : c ∈ lineBlanks) {lines text : List Char → List Char}
    (layout : Layout lines text) : Layout (fun rest => c :: lines rest) text

namespace Layout

variable {lines text : List Char → List Char}

theorem newLine (layout : Layout lines text) (level : Nat) :
    Layout (fun rest => newLine level (lines rest)) text := by
  have indented : ∀ count, Layout (fun rest => List.replicate count ' ' ++ lines rest) text := by
    intro count
    induction count with
    | zero => exact layout
    | succ count ih => exact .blank (by decide) ih
  exact .blank (by decide) (indented (2 * level))

/-- A document over several lines and the same document without blanks are laid out so. -/
theorem writeLines (document : Document) (layout : Layout lines text) (level : Nat) :
    Layout (fun rest => document.writeLines level (lines rest)) fun rest =>
      document.write (text rest) := by
  induction document generalizing level lines text with
  | scalar value =>
    simp only [Document.writeLines, write]
    exact .scalar value layout
  | list items ih =>
    have close : Layout (fun rest => ']' :: lines rest) fun rest => ']' :: text rest :=
      .mark (by decide) layout
    have behind {others : List Document} (sub : others ⊆ items) :
        Layout (fun rest => writeItemLines (level + 1) others
            (Document.newLine level (']' :: lines rest)))
          fun rest => writeItems others (']' :: text rest) := by
      induction others with
      | nil => exact close.newLine level
      | cons item others others_ih =>
        obtain ⟨item_mem, others_sub⟩ := List.cons_subset.mp sub
        exact .mark (by decide) ((ih item item_mem (others_ih others_sub) _).newLine _)
    cases items with
    | nil => exact .mark (by decide) close
    | cons item items =>
      have others_layout := behind (List.subset_cons_self item items)
      exact .mark (by decide) ((ih item List.mem_cons_self others_layout _).newLine _)
  | object members ih =>
    have close : Layout (fun rest => '\x7d' :: lines rest) fun rest => '\x7d' :: text rest :=
      .mark (by decide) layout
    have one {member : String × Document} (member_mem : member ∈ members)
        {lines text : List Char → List Char} (layout : Layout lines text) :
        Layout (fun rest => writeMemberLine (level + 1) member (lines rest)) fun rest =>
          writeMember member (text rest) := by
      obtain ⟨key, value⟩ := member
      have value_layout := ih (key, value) member_mem layout (level + 1)
      exact .scalar (.string key) (.mark (by decide) (.blank (by decide) value_layout))
    have behind {others : List (String × Document)} (sub : others ⊆ members) :
        Layout (fun rest => writeMemberLines (level + 1) others
            (Document.newLine level ('\x7d' :: lines rest)))
          fun rest => writeMembers others ('\x7d' :: text rest) := by
      induction others with
      | nil => exact close.newLine level
      | cons member others others_ih =>
        obtain ⟨member_mem, others_sub⟩ := List.cons_subset.mp sub
        exact .mark (by decide) ((one member_mem (others_ih others_sub)).newLine _)
    cases members with
    | nil => exact .mark (by decide) close
    | cons member members =>
      have others_layout := behind (List.subset_cons_self member members)
      exact .mark (by decide) ((one List.mem_cons_self others_layout).newLine _)

/-- What scalars and marks keep when they are put in front of a text is kept without blanks. -/
theorem keeps {p : List Char → Prop}
    (scalar : ∀ (value : Scalar) {rest : List Char}, p rest → p (value.write rest))
    (mark : ∀ c ∈ marks, ∀ {rest : List Char}, p rest → p (c :: rest)) (layout : Layout lines text)
    {rest : List Char} (holds : p rest) : p (text rest) := by
  induction layout with
  | done => exact holds
  | scalar value _ ih => exact scalar value ih
  | mark isMark _ ih => exact mark _ isMark ih
  | blank _ _ ih => exact ih

end Layout

/-- What scalars and marks keep when they are put in front of a text is kept by every document. -/
theorem write_induction {p : List Char → Prop}
    (scalar : ∀ (value : Scalar) {rest : List Char}, p rest → p (value.write rest))
    (mark : ∀ c ∈ marks, ∀ {rest : List Char}, p rest → p (c :: rest)) (document : Document)
    {rest : List Char} (holds : p rest) : p (document.write rest) :=
  (Layout.done.writeLines document 0).keeps scalar mark holds

end Document
end Json
end PolicyReview
