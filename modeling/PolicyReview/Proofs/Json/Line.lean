import PolicyReview.Proofs.Json.Written

/-!
# Documents on one line

The text of a document holds no line break and no other control character: numerals have none,
strings escape theirs, and brackets, commas and colons stand without blanks between them.
-/

namespace PolicyReview

/-- The text has no control character, so it does not break a line. -/
def OneLine (text : List Char) : Prop :=
  ∀ c ∈ text, ' ' ≤ c

namespace OneLine

theorem nil : OneLine [] :=
  fun _ nil_mem => absurd nil_mem List.not_mem_nil

theorem cons {c : Char} {text : List Char} (visible : ' ' ≤ c) (oneLine : OneLine text) :
    OneLine (c :: text) :=
  List.forall_mem_cons.mpr ⟨visible, oneLine⟩

theorem append {before after : List Char} (before_oneLine : OneLine before)
    (after_oneLine : OneLine after) : OneLine (before ++ after) :=
  List.forall_mem_append.mpr ⟨before_oneLine, after_oneLine⟩

/-- The characters of a text can be checked one by one. -/
theorem of_all {text : List Char} (checked : text.all (' ' ≤ ·) = true) : OneLine text :=
  fun c c_mem => of_decide_eq_true (List.all_eq_true.mp checked c c_mem)

theorem of_numeric {text : List Char} (numeric : Numeric text) : OneLine text :=
  fun c c_mem => (visible_of_isNumeralChar (numeric c c_mem)).1

theorem newline_not_mem {text : List Char} (oneLine : OneLine text) : '\n' ∉ text :=
  fun newline_mem => absurd (oneLine _ newline_mem) (by decide)

end OneLine

namespace Json

theorem oneLine_writeString (content : List Char) {rest : List Char} (rest_oneLine : OneLine rest) :
    OneLine (writeString content rest) := by
  have content_oneLine : OneLine (content.flatMap escapeChar) := by
    intro written written_mem
    obtain ⟨c, _, written_mem⟩ := List.mem_flatMap.mp written_mem
    exact space_le_escapeChar written_mem
  exact .cons (by decide) (.append content_oneLine (.cons (by decide) rest_oneLine))

theorem Scalar.oneLine_write (value : Scalar) {rest : List Char} (rest_oneLine : OneLine rest) :
    OneLine (value.write rest) := by
  cases value with
  | null =>
    have name_oneLine : OneLine ['n', 'u', 'l', 'l'] := .of_all (by decide)
    exact name_oneLine.append rest_oneLine
  | bool value =>
    have name_oneLine : OneLine ((Scalar.bool value).write []) :=
      .of_all (by cases value <;> decide)
    rw [Document.scalar_write_append]
    exact name_oneLine.append rest_oneLine
  | number value => exact .append (.of_numeric value.numeric_text) rest_oneLine
  | string value => exact oneLine_writeString _ rest_oneLine

namespace Document

/-- Writing a document in front of one line gives one line. -/
theorem oneLine_write (document : Document) {rest : List Char} (rest_oneLine : OneLine rest) :
    OneLine (document.write rest) := by
  have visible : OneLine marks := .of_all (by decide)
  exact write_induction Scalar.oneLine_write (fun c c_mark _ => .cons (visible c c_mark)) document
    rest_oneLine

theorem oneLine_text (document : Document) : OneLine document.text.toList := by
  rw [text, String.toList_ofList]
  exact document.oneLine_write .nil

end Document
end Json
end PolicyReview
