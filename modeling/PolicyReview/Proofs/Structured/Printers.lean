import PolicyReview.Proofs.Structured.Encoding
import PolicyReview.Proofs.Structured.Readers

/-!
# Three printers of one value

A dynamic value whose words are finite, its structural image and the plain value of the image have
one document, so they are written as one text, however deep they are.  An encoded value is the image
of its metadata: its text is the canonical text of the metadata, and it is encoded as itself.
-/

namespace PolicyReview

namespace Json.Value

theorem itemDocuments_eq_map (items : List Value) : itemDocuments items = items.map document := by
  induction items with
  | nil => rfl
  | cons item items ih => rw [itemDocuments, ih, List.map_cons]

theorem entryDocuments_eq_map (entries : List (String × Value)) :
    entryDocuments entries = entries.map (Prod.map id document) := by
  induction entries with
  | nil => rfl
  | cons entry entries ih => rw [entryDocuments, ih, List.map_cons]; rfl

end Json.Value

namespace Structured

/-- The plain value of a structured value has its document. -/
theorem document_toJson (value : Structured) : value.toJson.document = value.document := by
  induction value with
  | null => rfl
  | bool value => rfl
  | number value => rfl
  | string value => rfl
  | list items ih =>
    rw [toJson, Json.Value.document, document, Json.Value.itemDocuments_eq_map,
      itemsToJson_eq_map, itemDocuments_eq_map, List.map_map]
    exact congrArg Json.Document.list (List.map_congr_left ih)
  | object fields ih =>
    rw [toJson, Json.Value.document, document, Json.Value.entryDocuments_eq_map,
      fieldsToJson_eq_map, fieldDocuments_eq_map, List.map_map]
    refine congrArg Json.Document.object (List.map_congr_left fun field field_mem => ?_)
    exact congrArg (field.1, ·) (ih field field_mem)

theorem text_toJson (value : Structured) : value.toJson.text = value.text := by
  rw [Json.Value.text, document_toJson, text]

/-- The normal form of metadata is encoded as the image of the metadata. -/
theorem encodeMetadata_toDynamic {metadata : DynamicMap} {value : Structured}
    (ordered : (Dynamic.map metadata).Ordered)
    (depth_le : (Dynamic.map metadata).depth ≤ Json.nestingLimit)
    (image_eq : image? (.map metadata) = some value) :
    ∃ entries, value.toDynamic = .map entries ∧ encodeMetadata entries = .ok value := by
  have normal_eq := toDynamic_of_image? image_eq
  refine ⟨Dynamic.entriesNormal metadata, normal_eq, ?_⟩
  have image_again : image? (.map (Dynamic.entriesNormal metadata)) = some value := by
    rw [← image?_toDynamic value, normal_eq, Dynamic.normal]
  rw [encodeMetadata_of_image? image_again,
    ofDocument_document (ordered_of_image? image_eq ordered)]
  rwa [← Dynamic.normal, Dynamic.depth_normal]

/-- The three printers write one text.  The text of an encoded value is the canonical text of the
metadata, and the value is read from it and encoded again without change. -/
theorem printers_agree :
    (∀ value : Dynamic, value.AllFinite → ∃ image, image? value = some image ∧
      value.text = .ok image.text ∧ image.toJson.text = image.text) ∧
    ∀ (metadata : DynamicMap) (value : Structured), (Dynamic.map metadata).Ordered →
      encodeMetadata metadata = .ok value →
      (Dynamic.map metadata).text = .ok value.text ∧ value.toJson.text = value.text ∧
      ofText value.text = .ok value ∧
      ∃ entries, Dynamic.ofJson value.toJson = .map entries ∧
        encodeMetadata entries = .ok value := by
  constructor
  · intro value finite
    obtain ⟨image, image_eq⟩ := exists_image?_iff.mpr finite
    exact ⟨image, image_eq, text_of_image? image_eq, image.text_toJson⟩
  · intro metadata value ordered encoded
    have image_eq := image?_of_encodeMetadata ordered encoded
    obtain ⟨_, depth_le⟩ := exists_encodeMetadata_eq_ok_iff.mp ⟨value, encoded⟩
    have read_back : ofText value.text = .ok value := by
      rw [ofText_text (ordered_of_image? image_eq ordered)]
      apply Json.Document.withinBudget_of_depth_le
      rwa [depth_document, depth_eq_of_image? image_eq]
    exact ⟨text_of_image? image_eq, value.text_toJson, read_back,
      encodeMetadata_toDynamic ordered depth_le image_eq⟩

/-- A small unsigned integer, a negative zero and an empty list. -/
theorem printers_agree_of_three_fields :
    ∃ image value, image? (.map [("count", .uint 5), ("ratio", .float (Binary64.zero true)),
        ("tags", .list [])]) = some image ∧
      encodeMetadata [("count", .uint 5), ("ratio", .float (Binary64.zero true)),
        ("tags", .list [])] = .ok value ∧
      image.text = "\x7b\"count\":5,\"ratio\":-0.0,\"tags\":[]\x7d" ∧
      image.toJson.text = image.text ∧ value.text = image.text ∧
      ofText image.text = .ok value := by
  have finite : (Dynamic.map [("count", .uint 5), ("ratio", .float (Binary64.zero true)),
      ("tags", .list [])]).AllFinite := by
    decide
  have ordered : (Dynamic.map [("count", .uint 5), ("ratio", .float (Binary64.zero true)),
      ("tags", .list [])]).Ordered := by
    refine ⟨?_, trivial, trivial, trivial, trivial⟩
    rw [Entries.Ordered]
    decide
  have computed : (Dynamic.map [("count", .uint 5), ("ratio", .float (Binary64.zero true)),
      ("tags", .list [])]).text.toOption =
        some "\x7b\"count\":5,\"ratio\":-0.0,\"tags\":[]\x7d" := by
    decide +kernel
  obtain ⟨of_finite, of_encoded⟩ := printers_agree
  obtain ⟨image, image_eq, written, plain_eq⟩ := of_finite _ finite
  obtain ⟨value, encoded⟩ := exists_encodeMetadata_eq_ok_iff.mpr ⟨finite, by decide⟩
  obtain ⟨canonical, _, read_back, _⟩ := of_encoded _ value ordered encoded
  have value_text := Except.ok.inj (canonical.symm.trans written)
  rw [value_text] at read_back
  rw [written] at computed
  exact ⟨image, value, image_eq, encoded, Option.some.inj computed, plain_eq, value_text,
    read_back⟩

end Structured
end PolicyReview
