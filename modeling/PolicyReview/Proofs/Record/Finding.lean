import PolicyReview.Proofs.Json.Record
import PolicyReview.Proofs.Structured.Document
import PolicyReview.Record.Finding

/-!
# Violations read back

A violation is read back from its text.  Its object spends one level of the nesting limit, so its
metadata may be one level less deep than metadata that stands alone.
-/

namespace PolicyReview
namespace Violation

open Json (withinBudget)
open Json.Document (endsNumeral_cons)

/-- The draft of a violation with all its fields. -/
def filled (violation : Violation) : Draft :=
  ⟨some violation.constraint, some violation.resource, some violation.message,
    some violation.metadata⟩

theorem fills (violation : Violation) :
    shape.Fills 126 [] shape.blank
      [("constraint", .string violation.constraint), ("resource", .string violation.resource),
        ("message", .string violation.message), ("metadata", violation.metadata.document)]
      (violation.metadata.document.overflow? 126 ['\x7d'])
      (filled { violation with
        metadata := Structured.assembly.ofDocument violation.metadata.document }) := by
  have metadata_read : Structured.read 126 (violation.metadata.document.write ['\x7d']) =
      withinBudget (violation.metadata.document.overflow? 126 ['\x7d'])
        (Structured.assembly.ofDocument violation.metadata.document, ['\x7d']) :=
    violation.metadata.document.readsBack Structured.assembly 126 ['\x7d']
      (endsNumeral_cons (by decide) [])
  apply Json.Shape.Fills.within _ rfl rfl (Json.Field.string_read ..)
  apply Json.Shape.Fills.within _ rfl rfl (Json.Field.string_read ..)
  apply Json.Shape.Fills.within _ rfl rfl (Json.Field.string_read ..)
  exact .last _ rfl rfl (Json.Field.at_read metadata_read _)

/-- The text of a violation is read as the violation, or refused at the first bracket of its
metadata beyond the limit. -/
theorem ofText_text {violation : Violation} (ordered : violation.metadata.Ordered) :
    ofText violation.document.text =
      withinBudget (violation.metadata.document.overflow? 126 ['\x7d']) violation := by
  rw [ofText, document, Json.Shape.readText_of_fills violation.fills rfl,
    Structured.ofDocument_document ordered]

/-- Deeper metadata than the limit is refused at a bracket. -/
theorem ofText_text_tooDeep {violation : Violation} (ordered : violation.metadata.Ordered)
    (deep : 126 < violation.metadata.depth) :
    ∃ remaining, ofText violation.document.text = .error (.tooDeep remaining) := by
  rw [← Structured.depth_document] at deep
  rw [ofText_text ordered]
  exact Json.Document.exists_withinBudget_eq_tooDeep deep _ _

/-- A violation is read back exactly when its metadata is less deep than the nesting limit. -/
theorem ofText_text_eq_ok_iff {violation : Violation} (ordered : violation.metadata.Ordered) :
    ofText violation.document.text = .ok violation ↔ violation.metadata.depth ≤ 126 := by
  rw [ofText_text ordered, Json.Document.withinBudget_eq_ok_iff, Structured.depth_document]
  exact and_iff_left rfl

end Violation
end PolicyReview
