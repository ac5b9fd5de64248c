import PolicyReview.Proofs.Json.Nesting
import PolicyReview.Proofs.Structured.Image

/-!
# Encoded metadata

Metadata is encoded exactly when all its words are finite and its text opens no more brackets at
once than the reader allows.  What is read back is then the structural image of the metadata.
Otherwise the error is the first word that is not finite or, where there is none, the first bracket
beyond the limit.
-/

namespace PolicyReview
namespace Structured

variable {metadata : DynamicMap}

theorem encodeMetadata_of_firstNonFinite? {word : Binary64}
    (first : (Dynamic.map metadata).firstNonFinite? = some word) :
    encodeMetadata metadata = .error (.write ⟨word⟩) := by
  rw [encodeMetadata, Dynamic.text_eq_error first]

theorem encodeMetadata_of_refused {text : String} {error : Json.Error}
    (written : (Dynamic.map metadata).text = .ok text) (refused : ofText text = .error error) :
    encodeMetadata metadata = .error (.read text error) := by
  simp only [encodeMetadata, written, refused]

/-- Metadata with an image that is not too deep is encoded as what the document of the image
builds. -/
theorem encodeMetadata_of_image? {image : Structured}
    (image_eq : image? (.map metadata) = some image)
    (depth_le : (Dynamic.map metadata).depth ≤ Json.nestingLimit) :
    encodeMetadata metadata = .ok (assembly.ofDocument image.document) := by
  have value_read := image.ofText_text_eq_build
  rw [Json.Document.withinBudget_of_depth_le] at value_read
  · rw [encodeMetadata, text_of_image? image_eq]
    simp only [value_read]
  · rwa [depth_document, depth_eq_of_image? image_eq]

/-- Finite metadata that is too deep has a text, which is refused at the first bracket beyond the
limit. -/
theorem exists_text_refused_of_limit_lt_depth (finite : (Dynamic.map metadata).AllFinite)
    (deep : Json.nestingLimit < (Dynamic.map metadata).depth) :
    ∃ text front bracket back, (Dynamic.map metadata).text = .ok text ∧
      text.toList = front ++ bracket :: back ∧
      Json.FirstReaches .outside (Json.nestingLimit + 1) front bracket ∧
      ofText text = .error (.tooDeep (Json.byteLength (bracket :: back))) := by
  obtain ⟨image, image_eq⟩ := exists_image?_iff.mpr finite
  rw [← depth_eq_of_image? image_eq, ← depth_document] at deep
  obtain ⟨front, bracket, back, text_eq, reaches, refused⟩ :=
    Json.Document.exists_readText_text_eq_tooDeep assembly deep
  exact ⟨image.text, front, bracket, back, text_of_image? image_eq, text_eq, reaches, refused⟩

/-- Metadata is encoded exactly when it is finite and not too deep. -/
theorem exists_encodeMetadata_eq_ok_iff :
    (∃ value, encodeMetadata metadata = .ok value) ↔
      (Dynamic.map metadata).AllFinite ∧ (Dynamic.map metadata).depth ≤ Json.nestingLimit := by
  constructor
  · rintro ⟨value, value_eq⟩
    have finite : (Dynamic.map metadata).AllFinite := by
      rw [← Dynamic.firstNonFinite?_eq_none_iff, Option.eq_none_iff_forall_ne_some]
      intro word first
      rw [encodeMetadata_of_firstNonFinite? first] at value_eq
      cases value_eq
    refine ⟨finite, ?_⟩
    by_contra deep
    obtain ⟨text, _, _, _, written, _, _, refused⟩ :=
      exists_text_refused_of_limit_lt_depth finite (Nat.not_le.mp deep)
    rw [encodeMetadata_of_refused written refused] at value_eq
    cases value_eq
  · rintro ⟨finite, depth_le⟩
    obtain ⟨image, image_eq⟩ := exists_image?_iff.mpr finite
    exact ⟨_, encodeMetadata_of_image? image_eq depth_le⟩

/-- The encoded value of sorted metadata is its structural image. -/
theorem image?_of_encodeMetadata {value : Structured} (ordered : (Dynamic.map metadata).Ordered)
    (value_eq : encodeMetadata metadata = .ok value) : image? (.map metadata) = some value := by
  obtain ⟨finite, depth_le⟩ := exists_encodeMetadata_eq_ok_iff.mp ⟨value, value_eq⟩
  obtain ⟨image, image_eq⟩ := exists_image?_iff.mpr finite
  rw [encodeMetadata_of_image? image_eq depth_le,
    ofDocument_document (ordered_of_image? image_eq ordered)] at value_eq
  cases value_eq
  exact image_eq

/-- The domain and the value of the encoding of metadata. -/
theorem encodeMetadata_domain_and_value (metadata : DynamicMap)
    (ordered : (Dynamic.map metadata).Ordered) :
    ((∃ value, encodeMetadata metadata = .ok value) ↔
      (Dynamic.map metadata).AllFinite ∧ (Dynamic.map metadata).depth ≤ 127) ∧
    ∀ value, encodeMetadata metadata = .ok value → image? (.map metadata) = some value :=
  ⟨exists_encodeMetadata_eq_ok_iff, fun _ value_eq => image?_of_encodeMetadata ordered value_eq⟩

theorem encodeMetadata_two_fields :
    encodeMetadata [("count", .int (-1)), ("scores", .list [.float (Binary64.zero true)])] =
      .ok (.object [("count", .number (.negative (-1) (by decide))),
        ("scores", .list [.number (.float (Binary64.zero true) (by decide))])]) := by
  obtain ⟨domain, image_of_ok⟩ := encodeMetadata_domain_and_value
    [("count", .int (-1)), ("scores", .list [.float (Binary64.zero true)])]
    ⟨List.pairwise_pair.mpr (by decide), trivial, ⟨trivial, trivial⟩, trivial⟩
  obtain ⟨value, value_eq⟩ := domain.mpr
    ⟨by simp [Dynamic.AllFinite, Dynamic.words, Dynamic.entriesWords, Dynamic.itemsWords,
        Binary64.zero, Binary64.isFinite, Binary64.infinityCode], by decide⟩
  rw [value_eq]
  exact congrArg Except.ok (Option.some.inj ((image_of_ok value value_eq).symm.trans rfl))

end Structured
end PolicyReview
