import PolicyReview.Proofs.Dynamic.Equality

/-!
# Texts tell values apart

Documents are told apart by their texts, however deep they are, and structured values by their
documents.  Dynamic values whose words are finite therefore have one text exactly where they have
one normal form.  Equality of values, which the structural image keeps, is coarser than that only in
the signs of zeros.
-/

namespace PolicyReview

namespace Structured

theorem toDynamic_injective : Function.Injective toDynamic := by
  intro value other same
  have image_eq := image?_toDynamic value
  rw [same, image?_toDynamic] at image_eq
  exact (Option.some.inj image_eq).symm

/-- Lists with the same images are the same where each item is determined by its image. -/
theorem eq_of_map_eq_map {α β : Type} {f : α → β} {items others : List α}
    (each : ∀ item ∈ items, ∀ ⦃other⦄, f item = f other → item = other)
    (same : items.map f = others.map f) : items = others := by
  induction items generalizing others with
  | nil => exact (List.map_eq_nil_iff.mp same.symm).symm
  | cons item items ih =>
    obtain ⟨item_determined, items_determined⟩ := List.forall_mem_cons.mp each
    obtain ⟨other, others, rfl, head, tail⟩ := List.map_eq_cons_iff.mp same.symm
    rw [item_determined head.symm, ih items_determined tail.symm]

/-- A value is determined by its document. -/
theorem document_injective : Function.Injective document := by
  intro value other same
  induction value generalizing other with
  | null | bool value | number value | string value =>
    cases other <;> cases same
    rfl
  | list items ih =>
    cases other with
    | list others =>
      rw [document, document, Json.Document.list.injEq, itemDocuments_eq_map,
        itemDocuments_eq_map] at same
      exact congrArg list (eq_of_map_eq_map ih same)
    | _ => cases same
  | object fields ih =>
    cases other with
    | object others =>
      rw [document, document, Json.Document.object.injEq, fieldDocuments_eq_map,
        fieldDocuments_eq_map] at same
      refine congrArg object (eq_of_map_eq_map (fun field field_mem other same => ?_) same)
      obtain ⟨name_eq, document_eq⟩ := Prod.ext_iff.mp same
      exact Prod.ext name_eq (ih field field_mem document_eq)
    | _ => cases same

/-- Values of any depth are told apart by their texts. -/
theorem text_injective : Function.Injective text :=
  Json.Document.text_injective.comp document_injective

end Structured

namespace Dynamic

section Finite

variable {value other : Dynamic}

/-- Values have one text exactly where they have one normal form. -/
theorem text_eq_iff (finite : value.AllFinite) (other_finite : other.AllFinite) :
    value.text = other.text ↔ value.normal = other.normal := by
  obtain ⟨image, image_eq⟩ := Structured.exists_image?_iff.mpr finite
  obtain ⟨otherImage, other_eq⟩ := Structured.exists_image?_iff.mpr other_finite
  rw [Structured.text_of_image? image_eq, Structured.text_of_image? other_eq, Except.ok.injEq,
    Structured.text_injective.eq_iff, ← Structured.toDynamic_injective.eq_iff,
    Structured.toDynamic_of_image? image_eq, Structured.toDynamic_of_image? other_eq]

theorem allFinite_normal (finite : value.AllFinite) : value.normal.AllFinite := by
  obtain ⟨image, image_eq⟩ := Structured.exists_image?_iff.mpr finite
  rw [← Structured.toDynamic_of_image? image_eq]
  exact Structured.exists_image?_iff.mp ⟨image, image.image?_toDynamic⟩

/-- Normal forms are equal exactly where the values have one text without the signs of zeros. -/
theorem equal_normal_iff (finite : value.AllFinite) (other_finite : other.AllFinite) :
    value.normal.equal other.normal = true ↔
      value.withoutZeroSigns.text = other.withoutZeroSigns.text := by
  rw [text_eq_iff (allFinite_withoutZeroSigns finite) (allFinite_withoutZeroSigns other_finite),
    normal_withoutZeroSigns, normal_withoutZeroSigns, equal_iff (allFinite_normal finite)]

end Finite

/-- Two values whose words are finite have texts, and these are the same exactly where the normal
forms are; their images are equal exactly where the normal forms are equal.  Values with one text
are equal, and equal values have one text but for the signs of zeros. -/
theorem texts_tell_apart (value other : Dynamic) (finite : value.AllFinite)
    (other_finite : other.AllFinite) :
    ∃ image otherImage, Structured.image? value = some image ∧
      Structured.image? other = some otherImage ∧
      value.text = .ok image.text ∧ other.text = .ok otherImage.text ∧
      (image.text = otherImage.text ↔ value.normal = other.normal) ∧
      (image.equal otherImage = true ↔ value.normal.equal other.normal = true) ∧
      (image.text = otherImage.text → value.normal.equal other.normal = true) ∧
      (value.normal.equal other.normal = true ↔
        value.withoutZeroSigns.text = other.withoutZeroSigns.text) := by
  obtain ⟨image, image_eq⟩ := Structured.exists_image?_iff.mpr finite
  obtain ⟨otherImage, other_eq⟩ := Structured.exists_image?_iff.mpr other_finite
  have written := Structured.text_of_image? image_eq
  have other_written := Structured.text_of_image? other_eq
  have same_text_iff := text_eq_iff finite other_finite
  rw [written, other_written, Except.ok.injEq] at same_text_iff
  refine ⟨image, otherImage, image_eq, other_eq, written, other_written, same_text_iff, ?_,
    fun same_text => ?_, equal_normal_iff finite other_finite⟩
  · rw [← Structured.equal_toDynamic, Structured.toDynamic_of_image? image_eq,
      Structured.toDynamic_of_image? other_eq]
  · rw [equal_iff (allFinite_normal finite), same_text_iff.mp same_text]

/-- A negative zero and a positive one have texts of their own, but equal images. -/
theorem texts_tell_apart_of_two_zeros :
    ∃ image otherImage,
      Structured.image? (.map [("count", .uint 5), ("ratio", .float (Binary64.zero true))]) =
        some image ∧
      Structured.image? (.map [("count", .int 5), ("ratio", .float (Binary64.zero false))]) =
        some otherImage ∧
      image.text ≠ otherImage.text ∧ image.equal otherImage = true := by
  obtain ⟨image, otherImage, image_eq, other_eq, _, _, text_iff, equal_iff, _, _⟩ :=
    texts_tell_apart (.map [("count", .uint 5), ("ratio", .float (Binary64.zero true))])
      (.map [("count", .int 5), ("ratio", .float (Binary64.zero false))]) (by decide) (by decide)
  refine ⟨image, otherImage, image_eq, other_eq, fun same_text => ?_, equal_iff.mpr rfl⟩
  have normal_eq := text_iff.mp same_text
  simp [normal, entriesNormal, Binary64.zero] at normal_eq

end Dynamic
end PolicyReview
