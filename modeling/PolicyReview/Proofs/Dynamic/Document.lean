import PolicyReview.Proofs.Json.Meaning
import PolicyReview.Proofs.Structured.Readers

/-!
# Documents of dynamic values

A value whose words are finite has a document, which is as deep as the value and from which reading
builds the normal form of the value.  A value that is normal already is therefore kept.
-/

namespace PolicyReview

open Json (Document)

namespace Dynamic

/-- A value is written exactly when its words are finite, and the error is the first other word. -/
theorem document_eq_error_iff {value : Dynamic} {error : NonFinite} :
    value.document = .error error ↔ value.firstNonFinite? = some error.word := by
  cases first : value.firstNonFinite? with
  | none =>
    obtain ⟨document, document_eq⟩ := exists_document_of_firstNonFinite?_eq_none first
    simp [document_eq]
  | some word =>
    rw [document_eq_error first]
    constructor
    · rintro ⟨⟩
      rfl
    · rintro ⟨⟩
      rfl

theorem exists_document_iff {value : Dynamic} :
    (∃ document, value.document = .ok document) ↔ value.AllFinite := by
  rw [← firstNonFinite?_eq_none_iff]
  constructor
  · rintro ⟨document, document_eq⟩
    by_contra infinite
    obtain ⟨word, first⟩ := Option.ne_none_iff_exists'.mp infinite
    rw [document_eq_error first] at document_eq
    cases document_eq
  · exact exists_document_of_firstNonFinite?_eq_none

section Written

variable {value : Dynamic} {document : Document}

theorem exists_image?_of_document (written : value.document = .ok document) :
    ∃ image, Structured.image? value = some image ∧ image.document = document := by
  obtain ⟨image, image_eq⟩ := Structured.exists_image?_iff.mpr (exists_document_iff.mp ⟨_, written⟩)
  rw [Structured.document_eq_of_image? image_eq] at written
  exact ⟨image, image_eq, Except.ok.inj written⟩

theorem depth_of_document (written : value.document = .ok document) :
    document.depth = value.depth := by
  obtain ⟨image, image_eq, rfl⟩ := exists_image?_of_document written
  rw [Structured.depth_document, Structured.depth_eq_of_image? image_eq]

/-- The normal form of a sorted value is built from its document. -/
theorem ofDocument_of_document (ordered : value.Ordered) (written : value.document = .ok document) :
    assembly.ofDocument document = value.normal := by
  obtain ⟨image, image_eq, rfl⟩ := exists_image?_of_document written
  rw [← Structured.hom_toDynamic.map_ofDocument,
    Structured.ofDocument_document (Structured.ordered_of_image? image_eq ordered),
    Structured.toDynamic_of_image? image_eq]

end Written

mutual

/-- The unsigned integers anywhere in a value. -/
def unsigned : Dynamic → List UInt64
  | .uint value => [value]
  | .list items => itemsUnsigned items
  | .map entries => entriesUnsigned entries
  | _ => []

/-- The unsigned integers in the items of a list. -/
def itemsUnsigned : List Dynamic → List UInt64
  | [] => []
  | item :: items => item.unsigned ++ itemsUnsigned items

/-- The unsigned integers in the entries of a table. -/
def entriesUnsigned : List (String × Dynamic) → List UInt64
  | [] => []
  | (_, value) :: entries => value.unsigned ++ entriesUnsigned entries

end

/-- Every unsigned integer anywhere in the value is beyond the signed range. -/
def Settled (value : Dynamic) : Prop :=
  ∀ unsigned ∈ value.unsigned, 0x7FFFFFFFFFFFFFFF < unsigned.toNat

theorem settled_list_iff {items : List Dynamic} :
    (list items).Settled ↔ ∀ item ∈ items, item.Settled := by
  rw [Settled, unsigned]
  induction items with
  | nil => simp [itemsUnsigned]
  | cons item items ih =>
    rw [itemsUnsigned, List.forall_mem_append, ih, List.forall_mem_cons, ← Settled]

theorem settled_map_iff {entries : List (String × Dynamic)} :
    (map entries).Settled ↔ ∀ entry ∈ entries, entry.2.Settled := by
  rw [Settled, unsigned]
  induction entries with
  | nil => simp [entriesUnsigned]
  | cons entry entries ih =>
    obtain ⟨key, value⟩ := entry
    rw [entriesUnsigned, List.forall_mem_append, ih, List.forall_mem_cons, ← Settled]

/-- A settled value is its own normal form. -/
theorem normal_eq_self {value : Dynamic} (settled : value.Settled) : value.normal = value := by
  induction value with
  | null => rfl
  | bool value => rfl
  | int value => rfl
  | float word => rfl
  | string value => rfl
  | uint value => rw [normal, if_neg (Nat.not_le.mpr (settled value List.mem_cons_self))]
  | list items ih =>
    rw [settled_list_iff] at settled
    have items_same : items.map normal = items.map id :=
      List.map_congr_left fun item item_mem => ih item item_mem (settled item item_mem)
    rw [normal, itemsNormal_eq_map, items_same, List.map_id]
  | map entries ih =>
    rw [settled_map_iff] at settled
    have entries_same : entries.map (Prod.map id normal) = entries.map id :=
      List.map_congr_left fun entry entry_mem =>
        congrArg (entry.1, ·) (ih entry entry_mem (settled entry entry_mem))
    rw [normal, entriesNormal_eq_map, entries_same, List.map_id]

/-- Text keeps the value: its tables are sorted, its words are finite, and its unsigned integers are
beyond the signed range. -/
structure Kept (value : Dynamic) : Prop where
  ordered : value.Ordered
  finite : value.AllFinite
  large : ∀ unsigned ∈ value.unsigned, 0x7FFFFFFFFFFFFFFF < unsigned.toNat

end Dynamic
end PolicyReview
