import Mathlib.Data.Set.List
import PolicyReview.Event.Plain
import PolicyReview.Proofs.Event.Values

/-!
# Values taken from plain values

Every plain value is that of a structured value, sorted where the structured value is.  From its
events that structured value is taken again, and the dynamic value that is taken from them is the
one that the plain value is converted to: no event is refused, however deep the value is.
-/

namespace PolicyReview

namespace Json.Value

/-- Induction over the parts of a plain value. -/
@[elab_as_elim, induction_eliminator]
theorem parts_induction {motive : Value → Prop} (scalar : ∀ value, motive (.scalar value))
    (list : ∀ items, (∀ item ∈ items, motive item) → motive (.list items))
    (object : ∀ entries, (∀ entry ∈ entries, motive entry.2) → motive (.object entries))
    (value : Value) : motive value :=
  @Value.rec motive (fun items => ∀ item ∈ items, motive item)
    (fun entries => ∀ entry ∈ entries, motive entry.2) (fun entry => motive entry.2)
    scalar list object
    (List.forall_mem_nil _) (fun _ _ head tail => List.forall_mem_cons.mpr ⟨head, tail⟩)
    (List.forall_mem_nil _) (fun _ _ head tail => List.forall_mem_cons.mpr ⟨head, tail⟩)
    (fun _ _ value => value) value

mutual

/-- The entries of every object in the value are sorted by key. -/
def Ordered : Value → Prop
  | .scalar _ => True
  | .list items => ItemsOrdered items
  | .object entries => Entries.Ordered entries ∧ EntriesOrdered entries

/-- Every item of a list is ordered. -/
def ItemsOrdered : List Value → Prop
  | [] => True
  | item :: items => item.Ordered ∧ ItemsOrdered items

/-- Every entry of an object holds an ordered value. -/
def EntriesOrdered : List (String × Value) → Prop
  | [] => True
  | (_, value) :: entries => value.Ordered ∧ EntriesOrdered entries

end

theorem itemsOrdered_iff {items : List Value} :
    ItemsOrdered items ↔ ∀ item ∈ items, item.Ordered := by
  induction items with
  | nil => simp [ItemsOrdered]
  | cons item items ih => rw [ItemsOrdered, ih, List.forall_mem_cons]

theorem entriesOrdered_iff {entries : List (String × Value)} :
    EntriesOrdered entries ↔ ∀ entry ∈ entries, entry.2.Ordered := by
  induction entries with
  | nil => simp [EntriesOrdered]
  | cons entry entries ih =>
    obtain ⟨key, value⟩ := entry
    rw [EntriesOrdered, ih, List.forall_mem_cons]

end Json.Value

namespace Event

theorem ofJsonItems_eq_map (items : List Json.Value) : ofJsonItems items = items.map ofJson := by
  induction items with
  | nil => rfl
  | cons item items ih => rw [ofJsonItems, ih, List.map_cons]

theorem ofJsonEntries_eq_map (entries : List (String × Json.Value)) :
    ofJsonEntries entries = entries.map (Prod.map ownedString ofJson) := by
  induction entries with
  | nil => rfl
  | cons entry entries ih => rw [ofJsonEntries, ih, List.map_cons]; rfl

end Event

namespace Structured

/-- Every plain value is that of a structured value. -/
theorem toJson_surjective : Function.Surjective toJson := by
  intro json
  induction json with
  | scalar value => exact ⟨ofScalar value, by cases value <;> rfl⟩
  | list items ih =>
    have items_mem : items ∈ Set.range (List.map toJson) := by
      rw [Set.range_list_map]
      exact ih
    obtain ⟨values, rfl⟩ := items_mem
    exact ⟨list values, by rw [toJson, itemsToJson_eq_map]⟩
  | object entries ih =>
    have entries_mem : entries ∈ Set.range (List.map (Prod.map id toJson)) := by
      rw [Set.range_list_map]
      intro entry entry_mem
      obtain ⟨value, value_eq⟩ := ih entry entry_mem
      exact ⟨(entry.1, value), Prod.ext rfl value_eq⟩
    obtain ⟨fields, rfl⟩ := entries_mem
    exact ⟨object fields, by rw [toJson, fieldsToJson_eq_map]⟩

theorem ordered_toJson_iff (value : Structured) : value.toJson.Ordered ↔ value.Ordered := by
  induction value with
  | null => rfl
  | bool value => rfl
  | number value => rfl
  | string value => rfl
  | list items ih =>
    rw [toJson, Json.Value.Ordered, Ordered, Json.Value.itemsOrdered_iff, itemsOrdered_iff,
      itemsToJson_eq_map, List.forall_mem_map]
    exact forall₂_congr ih
  | object fields ih =>
    rw [toJson, Json.Value.Ordered, Ordered, Json.Value.entriesOrdered_iff, fieldsOrdered_iff,
      fieldsToJson_eq_map, List.forall_mem_map, Entries.Ordered, Entries.Ordered,
      List.pairwise_map]
    exact and_congr_right' (forall₂_congr ih)

theorem ofEvent_ofNumber (value : Json.Number) :
    ofEvent (Event.ofNumber value) = .ok (.number value) := by
  cases value with
  | natural value => rfl
  | negative value isNegative => rw [Event.ofNumber, ofEvent, ofInt64, dif_pos isNegative]
  | float word isFinite => rw [Event.ofNumber, ofEvent, ofWord, dif_pos isFinite]

/-- From the plain value of an ordered value the value is taken again. -/
theorem ofJson_toJson {value : Structured} (ordered : value.Ordered) :
    ofJson value.toJson = .ok value := by
  induction value with
  | null => rfl
  | bool value => rfl
  | number value => exact ofEvent_ofNumber value
  | string value => rfl
  | list items ih =>
    rw [Ordered, itemsOrdered_iff] at ordered
    have items_taken : (Event.ofJsonItems (itemsToJson items)).mapM ofEvent = .ok items := by
      rw [Event.ofJsonItems_eq_map, itemsToJson_eq_map, List.map_map, mapM_eq_ok_iff,
        List.forall₂_map_left_iff]
      exact List.forall₂_same.mpr fun item item_mem => ih item item_mem (ordered item item_mem)
    rw [toJson, ofJson, Event.ofJson, ofEvent_list, items_taken]
    rfl
  | object fields ih =>
    obtain ⟨names_ordered, values_ordered⟩ := ordered
    rw [fieldsOrdered_iff] at values_ordered
    have fields_taken : (Event.ofJsonEntries (fieldsToJson fields)).mapM (Event.member ofEvent) =
        .ok fields := by
      rw [Event.ofJsonEntries_eq_map, fieldsToJson_eq_map, List.map_map, mapM_eq_ok_iff,
        List.forall₂_map_left_iff]
      refine List.forall₂_same.mpr fun field field_mem => Event.member_eq_ok_iff.mpr ⟨rfl, ?_⟩
      exact ih field field_mem (values_ordered field field_mem)
    rw [toJson, ofJson, Event.ofJson, ofEvent_map, fields_taken]
    exact congrArg (Except.ok ∘ object) (Entries.ofMembers_eq_self names_ordered)

end Structured

namespace Dynamic

/-- From the events of an ordered plain value the dynamic value is taken that it is converted to. -/
theorem ofEvent_ofJson {json : Json.Value} (ordered : json.Ordered) :
    ofEvent (Event.ofJson json) = .ok (ofJson json) := by
  obtain ⟨value, rfl⟩ := Structured.toJson_surjective json
  rw [Structured.ordered_toJson_iff] at ordered
  exact Structured.ofEvent_toDynamic (Structured.ofJson_toJson ordered)

end Dynamic
end PolicyReview
