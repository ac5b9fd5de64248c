import PolicyReview.Proofs.Dynamic.Normal
import PolicyReview.Proofs.Json.Homomorphism
import PolicyReview.Proofs.Structured.Image

/-!
# Three readers of one text

A text is read as a structured value, as a plain value or as a dynamic value.  Converting a
structured value to a plain one, and that to a dynamic one, respects how the values are built, so
the three readers accept the same texts, refuse the others with the same errors, and their values
are converted into one another.  The structural image undoes the conversion, and the conversion
undoes the image up to normal form.
-/

namespace PolicyReview

namespace Dynamic

theorem ofJsonItems_eq_map (items : List Json.Value) : ofJsonItems items = items.map ofJson := by
  induction items with
  | nil => rfl
  | cons item items ih => rw [ofJsonItems, ih, List.map_cons]

theorem ofJsonEntries_eq_map (entries : List (String × Json.Value)) :
    ofJsonEntries entries = entries.map (Prod.map id ofJson) := by
  induction entries with
  | nil => rfl
  | cons entry entries ih => rw [ofJsonEntries, ih, List.map_cons]; rfl

/-- The dynamic value of a plain value is built part by part. -/
theorem hom_ofJson : Json.Value.assembly.Hom assembly ofJson where
  scalar _ := rfl
  list items := congrArg list (ofJsonItems_eq_map items)
  object members := by
    change map (ofJsonEntries _) = map _
    rw [ofJsonEntries_eq_map, Entries.ofMembers_map]

end Dynamic

namespace Structured

theorem itemsToJson_eq_map (items : List Structured) : itemsToJson items = items.map toJson := by
  induction items with
  | nil => rfl
  | cons item items ih => rw [itemsToJson, ih, List.map_cons]

theorem fieldsToJson_eq_map (fields : List (String × Structured)) :
    fieldsToJson fields = fields.map (Prod.map id toJson) := by
  induction fields with
  | nil => rfl
  | cons field fields ih => rw [fieldsToJson, ih, List.map_cons]; rfl

/-- The plain value of a structured value is built part by part. -/
theorem hom_toJson : assembly.Hom Json.Value.assembly toJson where
  scalar value := by cases value <;> rfl
  list items := congrArg Json.Value.list (itemsToJson_eq_map items)
  object members := by
    change Json.Value.object (fieldsToJson _) = Json.Value.object _
    rw [fieldsToJson_eq_map, Entries.ofMembers_map]

/-- The dynamic value with the structure of a structured value. -/
def toDynamic (value : Structured) : Dynamic :=
  Dynamic.ofJson value.toJson

theorem hom_toDynamic : assembly.Hom Dynamic.assembly toDynamic :=
  Dynamic.hom_ofJson.comp hom_toJson

theorem toDynamic_list (items : List Structured) :
    toDynamic (.list items) = .list (items.map toDynamic) := by
  rw [toDynamic, toJson, Dynamic.ofJson, Dynamic.ofJsonItems_eq_map, itemsToJson_eq_map,
    List.map_map]
  rfl

theorem toDynamic_object (fields : List (String × Structured)) :
    toDynamic (.object fields) = .map (fields.map (Prod.map id toDynamic)) := by
  rw [toDynamic, toJson, Dynamic.ofJson, Dynamic.ofJsonEntries_eq_map, fieldsToJson_eq_map,
    List.map_map]
  rfl

theorem image?_ofNumber (value : Json.Number) :
    image? (Dynamic.ofNumber value) = some (.number value) := by
  cases value with
  | natural value =>
    rw [Dynamic.ofNumber, Dynamic.ofUInt64]
    split
    · rename_i small
      have toInt_eq : value.toInt64.toInt = value.toNat :=
        BitVec.toInt_eq_toNat_of_lt (by simpa using (by omega : 2 * value.toNat < 2 ^ 64))
      rw [image?, toInt_eq, ofInt?_toNat]
      rfl
    · rw [image?, ofInt?_toNat]
      rfl
  | negative value isNegative =>
    rw [Dynamic.ofNumber, image?, Json.Number.ofInt?_negative value isNegative]
    rfl
  | float word isFinite => rw [Dynamic.ofNumber, image?, dif_pos isFinite]

/-- The image of a converted value is the value. -/
theorem image?_toDynamic (value : Structured) : image? value.toDynamic = some value := by
  induction value with
  | null => rfl
  | bool value => rfl
  | number value => exact image?_ofNumber value
  | string value => rfl
  | list items ih =>
    have items_image : itemsImage? (items.map toDynamic) = some items := by
      rw [itemsImage?_eq_some_iff, List.forall₂_map_left_iff]
      exact List.forall₂_same.mpr ih
    rw [toDynamic_list, image?, items_image]
    rfl
  | object fields ih =>
    have fields_image : entriesImage? (fields.map (Prod.map id toDynamic)) = some fields := by
      rw [entriesImage?_eq_some_iff, List.forall₂_map_left_iff]
      exact List.forall₂_same.mpr fun field field_mem => ⟨rfl, ih field field_mem⟩
    rw [toDynamic_object, image?, fields_image]
    rfl

/-- The image of a value is converted to the normal form of the value. -/
theorem toDynamic_of_image? {value : Dynamic} {image : Structured}
    (image_eq : image? value = some image) : image.toDynamic = value.normal := by
  refine image_induction (motive := fun value image => image.toDynamic = value.normal)
    ?null ?bool ?int ?uint ?float ?string ?list ?map image_eq
  case null => rfl
  case bool => exact fun _ => rfl
  case int => exact Dynamic.ofNumber_numberOfInt
  case uint => exact Dynamic.ofUInt64_eq_normal
  case float => exact fun _ _ => rfl
  case string => exact fun _ => rfl
  case list =>
    intro items values images
    rw [toDynamic_list, Dynamic.normal]
    congr 1
    induction images with
    | nil => rfl
    | cons head _ tail_ih => rw [List.map_cons, head, tail_ih, Dynamic.itemsNormal]
  case map =>
    intro entries fields images
    rw [toDynamic_object, Dynamic.normal]
    congr 1
    induction images with
    | nil => rfl
    | @cons entry field _ _ head _ tail_ih =>
      obtain ⟨key, value⟩ := entry
      obtain ⟨name, image⟩ := field
      obtain ⟨rfl, value_eq⟩ := head
      rw [List.map_cons, Prod.map_apply, value_eq, tail_ih, Dynamic.entriesNormal]
      rfl

end Structured

/-- A text is read as a plain value as it is read as a structured value. -/
theorem Json.Value.ofText_eq_map (text : String) :
    ofText text = (Structured.ofText text).map Structured.toJson :=
  Json.readText_map Structured.hom_toJson text

/-- A text is read as a dynamic value as it is read as a structured value. -/
theorem Dynamic.ofText_eq_map (text : String) :
    ofText text = (Structured.ofText text).map Structured.toDynamic :=
  Json.readText_map Structured.hom_toDynamic text

/-- The three readers refuse a text with the same error, or read values that are converted into one
another and of which the structured one is the structural image of the dynamic one. -/
theorem readers_agree (text : String) :
    (∃ error, Dynamic.ofText text = .error error ∧ Structured.ofText text = .error error ∧
      Json.Value.ofText text = .error error) ∨
    ∃ value structured json, Dynamic.ofText text = .ok value ∧
      Structured.ofText text = .ok structured ∧ Json.Value.ofText text = .ok json ∧
      Dynamic.ofJson json = value ∧ structured.toJson = json ∧
      Structured.image? value = some structured := by
  rw [Dynamic.ofText_eq_map, Json.Value.ofText_eq_map]
  cases Structured.ofText text with
  | error error => exact .inl ⟨error, rfl, rfl, rfl⟩
  | ok structured =>
    exact .inr ⟨structured.toDynamic, structured, structured.toJson, rfl, rfl, rfl, rfl, rfl,
      structured.image?_toDynamic⟩

end PolicyReview
