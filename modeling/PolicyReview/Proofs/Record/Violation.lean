import PolicyReview.Proofs.Json.Slots
import PolicyReview.Record.Finding

/-!
# The grammar of violations

A violation is read exactly from the documents that spell it: all four fields are required, three of
them are strings, and any value spells its metadata.
-/

namespace PolicyReview
namespace Violation

open Json (Document Means Slot SlotsOf valuesUnder)

/-- The fields of a violation with what documents spell for them. -/
def slots : List (Slot Draft) := [
  .string "constraint" (·.constraint) fun draft name => { draft with constraint := some name },
  .string "resource" (·.resource) fun draft name => { draft with resource := some name },
  .string "message" (·.message) fun draft message => { draft with message := some message },
  { name := "metadata"
    Value := Structured
    get := (·.metadata)
    set := fun draft metadata => { draft with metadata := some metadata }
    read := Structured.read
    spells := fun document metadata => Structured.assembly.ofDocument document = metadata
    means := Json.readValue_means Structured.assembly }]

theorem slotsOf_shape : SlotsOf slots shape.blank where
  names_nodup := by decide
  get_set := by simp [slots, Slot.string]
  get_set_other := by simp [slots, Slot.string]
  get_blank := by simp [slots, Slot.string, shape]
  ext := by
    rintro ⟨_, _, _, _⟩ ⟨_, _, _, _⟩ same
    simpa [slots, Slot.string] using same

/-- A document spells a violation. -/
def SpelledBy (document : Document) (violation : Violation) : Prop :=
  ∃ members metadata,
    document.membersFor? ["constraint", "resource", "message", "metadata"] = some members ∧
    valuesUnder "constraint" members = [.string violation.constraint] ∧
    valuesUnder "resource" members = [.string violation.resource] ∧
    valuesUnder "message" members = [.string violation.message] ∧
    valuesUnder "metadata" members = [metadata] ∧
    violation.metadata = Structured.assembly.ofDocument metadata

theorem finish_eq_ok_iff {draft : Draft} {violation : Violation} :
    shape.finish draft = .ok violation ↔ draft.constraint = some violation.constraint ∧
      draft.resource = some violation.resource ∧ draft.message = some violation.message ∧
      draft.metadata = some violation.metadata := by
  obtain ⟨constraint, resource, message, metadata⟩ := draft
  obtain ⟨_, _, _, _⟩ := violation
  cases constraint <;> cases resource <;> cases message <;> cases metadata <;> simp [shape]

/-- A violation is read exactly from the documents that spell it. -/
theorem read_means : Means (shape.read ·) SpelledBy := by
  refine Means.congr (Json.Shape.read_means rfl slotsOf_shape) fun document violation => ?_
  constructor
  · rintro ⟨members, draft, members_eq, given, finished⟩
    obtain ⟨constraint_eq, resource_eq, message_eq, metadata_eq⟩ := finish_eq_ok_iff.mp finished
    simp only [slots, Slot.string, List.forall_mem_cons, constraint_eq, resource_eq, message_eq,
      metadata_eq, Json.given_some_iff, exists_eq_right] at given
    obtain ⟨constraint, resource, message, ⟨metadata, metadata_under, built⟩, -⟩ := given
    exact ⟨members, metadata, members_eq, constraint, resource, message, metadata_under, built.symm⟩
  · rintro ⟨members, metadata, members_eq, constraint, resource, message, metadata_under, built⟩
    refine ⟨members, ⟨some violation.constraint, some violation.resource, some violation.message,
      some violation.metadata⟩, members_eq, ?_, finish_eq_ok_iff.mpr ⟨rfl, rfl, rfl, rfl⟩⟩
    simp [slots, Slot.string, constraint, resource, message, metadata_under, built]

end Violation
end PolicyReview
