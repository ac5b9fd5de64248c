import PolicyReview.Proofs.Entries
import PolicyReview.Proofs.Json.Canonical
import PolicyReview.Structured.Basic

/-!
# Structured values and their documents

A structured value whose objects are ordered is what its document builds.  The document has the
depth of the value, and the names in it increase as the fields of the value do.
-/

namespace PolicyReview
namespace Structured

/-- Induction over the parts of a structured value. -/
@[elab_as_elim, induction_eliminator]
theorem parts_induction {motive : Structured → Prop} (null : motive .null)
    (bool : ∀ value, motive (.bool value)) (number : ∀ value, motive (.number value))
    (string : ∀ value, motive (.string value))
    (list : ∀ items, (∀ item ∈ items, motive item) → motive (.list items))
    (object : ∀ fields, (∀ field ∈ fields, motive field.2) → motive (.object fields))
    (value : Structured) : motive value :=
  match value with
  | .null => null
  | .bool value => bool value
  | .number value => number value
  | .string value => string value
  | .list items =>
    list items fun item _ => parts_induction null bool number string list object item
  | .object fields =>
    object fields fun (_, value) _ => parts_induction null bool number string list object value
decreasing_by
  · have := List.sizeOf_lt_of_mem ‹item ∈ items›
    simp only [Structured.list.sizeOf_spec]
    omega
  · have := List.sizeOf_lt_of_mem ‹(_, value) ∈ fields›
    simp only [Structured.object.sizeOf_spec, Prod.mk.sizeOf_spec] at this ⊢
    omega

mutual

/-- The depth of a scalar is zero; a list or an object is one level deeper than its parts. -/
def depth : Structured → Nat
  | .list items => itemsDepth items + 1
  | .object fields => fieldsDepth fields + 1
  | _ => 0

/-- The largest depth of an item. -/
def itemsDepth : List Structured → Nat
  | [] => 0
  | item :: items => max item.depth (itemsDepth items)

/-- The largest depth of a field. -/
def fieldsDepth : List (String × Structured) → Nat
  | [] => 0
  | (_, value) :: fields => max value.depth (fieldsDepth fields)

end

mutual

/-- The fields of every object in the value are sorted by name. -/
def Ordered : Structured → Prop
  | .list items => ItemsOrdered items
  | .object fields => Entries.Ordered fields ∧ FieldsOrdered fields
  | _ => True

/-- Every item of a list is ordered. -/
def ItemsOrdered : List Structured → Prop
  | [] => True
  | item :: items => item.Ordered ∧ ItemsOrdered items

/-- Every field of an object holds an ordered value. -/
def FieldsOrdered : List (String × Structured) → Prop
  | [] => True
  | (_, value) :: fields => value.Ordered ∧ FieldsOrdered fields

end

theorem itemsOrdered_iff {items : List Structured} :
    ItemsOrdered items ↔ ∀ item ∈ items, item.Ordered := by
  induction items with
  | nil => simp [ItemsOrdered]
  | cons item items ih => rw [ItemsOrdered, ih, List.forall_mem_cons]

theorem fieldsOrdered_iff {fields : List (String × Structured)} :
    FieldsOrdered fields ↔ ∀ field ∈ fields, field.2.Ordered := by
  induction fields with
  | nil => simp [FieldsOrdered]
  | cons field fields ih =>
    obtain ⟨name, value⟩ := field
    rw [FieldsOrdered, ih, List.forall_mem_cons]

theorem itemsDepth_eq_foldr (items : List Structured) :
    itemsDepth items = (items.map depth).foldr max 0 := by
  induction items with
  | nil => rfl
  | cons item items ih => rw [itemsDepth, ih, List.map_cons, List.foldr_cons]

theorem fieldsDepth_eq_foldr (fields : List (String × Structured)) :
    fieldsDepth fields = (fields.map (·.2.depth)).foldr max 0 := by
  induction fields with
  | nil => rfl
  | cons field fields ih => rw [fieldsDepth, ih, List.map_cons, List.foldr_cons]

theorem itemDocuments_eq_map (items : List Structured) :
    itemDocuments items = items.map document := by
  induction items with
  | nil => rfl
  | cons item items ih => rw [itemDocuments, ih, List.map_cons]

theorem fieldDocuments_eq_map (fields : List (String × Structured)) :
    fieldDocuments fields = fields.map fun field => (field.1, field.2.document) := by
  induction fields with
  | nil => rfl
  | cons field fields ih => rw [fieldDocuments, ih, List.map_cons]

@[simp]
theorem depth_document (value : Structured) : value.document.depth = value.depth := by
  induction value with
  | null => rfl
  | bool value => rfl
  | number value => rfl
  | string value => rfl
  | list items ih =>
    rw [document, depth, Json.Document.depth, Nat.add_left_inj, itemDocuments_eq_map,
      itemsDepth_eq_foldr, Json.Document.itemsDepth_eq_foldr, List.map_map]
    exact congrArg (List.foldr max 0) (List.map_congr_left ih)
  | object fields ih =>
    rw [document, depth, Json.Document.depth, Nat.add_left_inj, fieldDocuments_eq_map,
      fieldsDepth_eq_foldr, Json.Document.membersDepth_eq_foldr, List.map_map]
    exact congrArg (List.foldr max 0) (List.map_congr_left ih)

/-- The names in the document of an ordered value increase in the order of their bytes. -/
theorem namesIncrease_document {value : Structured} (ordered : value.Ordered) :
    value.document.NamesIncrease := by
  induction value with
  | null => trivial
  | bool value => trivial
  | number value => trivial
  | string value => trivial
  | list items ih =>
    rw [Ordered, itemsOrdered_iff] at ordered
    rw [document, Json.Document.NamesIncrease, Json.Document.itemsNamesIncrease_iff,
      itemDocuments_eq_map, List.forall_mem_map]
    exact fun item item_mem => ih item item_mem (ordered item item_mem)
  | object fields ih =>
    obtain ⟨names_ordered, values_ordered⟩ := ordered
    rw [fieldsOrdered_iff] at values_ordered
    rw [document, Json.Document.NamesIncrease, Json.Document.membersNamesIncrease_iff,
      fieldDocuments_eq_map, List.forall_mem_map, List.pairwise_map]
    constructor
    · exact List.Pairwise.imp Text.utf8Bytes_lt_of_lt names_ordered
    · exact fun field field_mem => ih field field_mem (values_ordered field field_mem)

/-- An ordered value is built by its document. -/
theorem ofDocument_document {value : Structured} (ordered : value.Ordered) :
    assembly.ofDocument value.document = value := by
  induction value with
  | null => rfl
  | bool value => rfl
  | number value => rfl
  | string value => rfl
  | list items ih =>
    rw [Ordered, itemsOrdered_iff] at ordered
    have items_eq : assembly.ofItems (itemDocuments items) = items := by
      rw [itemDocuments_eq_map, Json.Assembly.ofItems_eq_map, List.map_map]
      refine (List.map_congr_left fun item item_mem => ?_).trans (List.map_id' items)
      exact ih item item_mem (ordered item item_mem)
    rw [document, Json.Assembly.ofDocument, items_eq]
    rfl
  | object fields ih =>
    obtain ⟨names_ordered, values_ordered⟩ := ordered
    rw [fieldsOrdered_iff] at values_ordered
    have fields_eq : assembly.ofMembers (fieldDocuments fields) = fields := by
      rw [fieldDocuments_eq_map, Json.Assembly.ofMembers_eq_map, List.map_map]
      refine (List.map_congr_left fun field field_mem => ?_).trans (List.map_id' fields)
      exact congrArg (field.1, ·) (ih field field_mem (values_ordered field field_mem))
    rw [document, Json.Assembly.ofDocument, fields_eq]
    exact congrArg object (Entries.ofMembers_eq_self names_ordered)

/-- The text of a value is read as what the document builds, or refused at the first bracket beyond
the limit. -/
theorem ofText_text_eq_build (value : Structured) :
    ofText value.text = Json.withinBudget (value.document.overflow? Json.nestingLimit [])
      (assembly.ofDocument value.document) := by
  rw [ofText, text, Json.Document.readText_text]

/-- The text of an ordered value is read as the value. -/
theorem ofText_text {value : Structured} (ordered : value.Ordered) :
    ofText value.text =
      Json.withinBudget (value.document.overflow? Json.nestingLimit []) value := by
  rw [ofText_text_eq_build, ofDocument_document ordered]

end Structured
end PolicyReview
