import PolicyReview.Proofs.Event.Plain

/-!
# Structured values written and taken back

A structured value has a text, since all its numbers have one.  The text is read as the value up to
the nesting limit of the reader and refused beyond it.  Without text, from its plain value, a
structured value is taken back at any depth.
-/

namespace PolicyReview
namespace Structured

/-- The writer of dynamic values, which refuses words without text, refuses none of these. -/
theorem text_toDynamic (value : Structured) : value.toDynamic.text = .ok value.text :=
  text_of_image? value.image?_toDynamic

theorem ofText_text_eq_ok_iff {value : Structured} (ordered : value.Ordered) {read : Structured} :
    ofText value.text = .ok read ↔ value.depth ≤ 127 ∧ read = value := by
  rw [ofText_text ordered, Json.Document.withinBudget_eq_ok_iff, depth_document]
  rfl

theorem ofText_text_tooDeep {value : Structured} (deep : 127 < value.depth) :
    ∃ remaining, ofText value.text = .error (.tooDeep remaining) := by
  rw [← depth_document] at deep
  rw [ofText_text_eq_build]
  exact Json.Document.exists_withinBudget_eq_tooDeep deep _ _

/-- Every value is written; it is read from its text exactly where it is not too deep, and taken
from its plain value always, in both cases as it was. -/
theorem round_trips (value : Structured) (ordered : value.Ordered) :
    value.toDynamic.text = .ok value.text ∧
    (∀ read, ofText value.text = .ok read ↔ value.depth ≤ 127 ∧ read = value) ∧
    (127 < value.depth → ∃ remaining, ofText value.text = .error (.tooDeep remaining)) ∧
    ofJson value.toJson = .ok value :=
  ⟨text_toDynamic value, fun _ => ofText_text_eq_ok_iff ordered, ofText_text_tooDeep,
    ofJson_toJson ordered⟩

/-- The least and the greatest integer and a negative zero. -/
theorem round_trips_of_three_numbers :
    ∃ value : Structured, value = .list [.number (.negative (-0x8000000000000000) (by decide)),
        .number (.natural 0xFFFFFFFFFFFFFFFF), .number (.float (Binary64.zero true) (by decide))] ∧
      ofText "[-9223372036854775808,18446744073709551615,-0.0]" = .ok value ∧
      ofJson value.toJson = .ok value := by
  obtain ⟨_, read_iff, _, taken⟩ := round_trips
    (.list [.number (.negative (-0x8000000000000000) (by decide)),
      .number (.natural 0xFFFFFFFFFFFFFFFF), .number (.float (Binary64.zero true) (by decide))])
    ⟨trivial, trivial, trivial, trivial⟩
  refine ⟨_, rfl, ?_, taken⟩
  have text_eq : (list [.number (.negative (-0x8000000000000000) (by decide)),
      .number (.natural 0xFFFFFFFFFFFFFFFF),
      .number (.float (Binary64.zero true) (by decide))]).text =
        "[-9223372036854775808,18446744073709551615,-0.0]" := by
    decide +kernel
  rw [← text_eq]
  exact (read_iff _).mpr ⟨by decide, rfl⟩

end Structured
end PolicyReview
