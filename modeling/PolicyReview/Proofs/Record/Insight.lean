import PolicyReview.Proofs.Record.Grammar
import PolicyReview.Record.Finding

/-!
# The grammar of insights

An insight is read exactly from the documents that spell it: all five fields are required, the
resources concerned are a list of strings, and the content is a table.
-/

namespace PolicyReview
namespace Insight

open Json (Document Means Slot SlotsOf valuesUnder)

theorem forall₂_string_iff {items : List Document} {values : List String} :
    List.Forall₂ (fun document value => document = Document.string value) items values ↔
      items = values.map Document.string := by
  rw [← List.forall₂_map_right_iff (R := Eq), List.forall₂_eq_eq_eq]

/-- The fields of an insight with what documents spell for them. -/
def slots : List (Slot Draft) := [
  .string "description" (·.description) fun draft text => { draft with description := some text },
  { name := "targetResources"
    Value := List String
    get := (·.targetResources)
    set := fun draft names => { draft with targetResources := some names }
    read := Json.readListOf fun _ => Json.readStringValue
    spells := fun document names => ∃ items, document = .list items ∧
      List.Forall₂ (fun document name => document = .string name) items names
    means := Json.readListOf_means Json.readStringValue_means },
  .string "insightSubtype" (·.subtype) fun draft name => { draft with subtype := some name },
  { name := "content"
    Value := DynamicMap
    get := (·.content)
    set := fun draft content => { draft with content := some content }
    read := Dynamic.readMap
    spells := fun document content => ∃ members, document = .object members ∧
      content = Entries.ofMembers (Dynamic.assembly.ofMembers members)
    means := Dynamic.readMap_means },
  .string "category" (·.category) fun draft name => { draft with category := some name }]

theorem slotsOf_shape : SlotsOf slots shape.blank where
  names_nodup := by decide
  get_set := by simp [slots, Slot.string]
  get_set_other := by simp [slots, Slot.string]
  get_blank := by simp [slots, Slot.string, shape]
  ext := by
    rintro ⟨_, _, _, _, _⟩ ⟨_, _, _, _, _⟩ same
    simpa [slots, Slot.string] using same

/-- A document spells an insight. -/
def SpelledBy (document : Document) (insight : Insight) : Prop :=
  ∃ members content, document.membersFor?
      ["description", "targetResources", "insightSubtype", "content", "category"] = some members ∧
    valuesUnder "description" members = [.string insight.description] ∧
    valuesUnder "targetResources" members = [.list (insight.targetResources.map .string)] ∧
    valuesUnder "insightSubtype" members = [.string insight.subtype] ∧
    valuesUnder "content" members = [.object content] ∧
    insight.content = Entries.ofMembers (Dynamic.assembly.ofMembers content) ∧
    valuesUnder "category" members = [.string insight.category]

theorem finish_eq_ok_iff {draft : Draft} {insight : Insight} :
    shape.finish draft = .ok insight ↔ draft.description = some insight.description ∧
      draft.targetResources = some insight.targetResources ∧
      draft.subtype = some insight.subtype ∧ draft.content = some insight.content ∧
      draft.category = some insight.category := by
  obtain ⟨description, targetResources, subtype, content, category⟩ := draft
  obtain ⟨_, _, _, _, _⟩ := insight
  cases description <;> cases targetResources <;> cases subtype <;> cases content <;>
    cases category <;> simp [shape]

/-- An insight is read exactly from the documents that spell it. -/
theorem read_means : Means (shape.read ·) SpelledBy := by
  refine Means.congr (Json.Shape.read_means rfl slotsOf_shape) fun document insight => ?_
  constructor
  · rintro ⟨members, draft, members_eq, given, finished⟩
    obtain ⟨description_eq, targets_eq, subtype_eq, content_eq, category_eq⟩ :=
      finish_eq_ok_iff.mp finished
    simp only [slots, Slot.string, List.forall_mem_cons, description_eq, targets_eq, subtype_eq,
      content_eq, category_eq, Json.given_some_iff, exists_eq_right] at given
    obtain ⟨description, ⟨_, targets, items, rfl, spelled⟩, subtype, ⟨_, contents, content, rfl,
      content_spelled⟩, category, -⟩ := given
    rw [forall₂_string_iff.mp spelled] at targets
    exact ⟨members, content, members_eq, description, targets, subtype, contents, content_spelled,
      category⟩
  · rintro ⟨members, content, members_eq, description, targets, subtype, contents,
      content_spelled, category⟩
    refine ⟨members, ⟨some insight.description, some insight.targetResources, some insight.subtype,
      some insight.content, some insight.category⟩, members_eq, ?_,
      finish_eq_ok_iff.mpr ⟨rfl, rfl, rfl, rfl, rfl⟩⟩
    simp [slots, Slot.string, description, targets, subtype, contents, content_spelled, category,
      forall₂_string_iff]

end Insight
end PolicyReview
