import PolicyReview.Proofs.Dynamic.Parts
import PolicyReview.Proofs.Structured.Document
import PolicyReview.Structured.Encoding

/-!
# Structural images

The structural image of a dynamic value has the same lists, tables, strings, booleans and nulls; an
integer becomes the number with its value and a finite word the number with its bits.  A value has
an image exactly when all its words are finite, and its document is then the document of the image.
-/

namespace PolicyReview
namespace Structured

mutual

/-- The structured value with the structure of a dynamic value, if all its words are finite. -/
def image? : Dynamic → Option Structured
  | .null => some .null
  | .bool value => some (.bool value)
  | .int value => (Json.Number.ofInt? value.toInt).map .number
  | .uint value => (Json.Number.ofInt? value.toNat).map .number
  | .float word =>
    if isFinite : word.isFinite = true then some (.number (.float word isFinite)) else none
  | .string value => some (.string value)
  | .list items => (itemsImage? items).map .list
  | .map entries => (entriesImage? entries).map .object

/-- The images of the items of a list. -/
def itemsImage? : List Dynamic → Option (List Structured)
  | [] => some []
  | item :: items =>
    (image? item).bind fun value => (itemsImage? items).map fun values => value :: values

/-- The images of the entries of a table, under the same keys. -/
def entriesImage? : List (String × Dynamic) → Option (List (String × Structured))
  | [] => some []
  | (key, value) :: entries =>
    (image? value).bind fun image =>
      (entriesImage? entries).map fun fields => (key, image) :: fields

end

/-- The items of a list have the images at the same places. -/
theorem itemsImage?_eq_some_iff {items : List Dynamic} {values : List Structured} :
    itemsImage? items = some values ↔
      List.Forall₂ (fun item value => image? item = some value) items values := by
  induction items generalizing values with
  | nil => simp [itemsImage?, eq_comm]
  | cons item items ih =>
    simp only [itemsImage?, Option.bind_eq_some_iff, Option.map_eq_some_iff, ih,
      List.forall₂_cons_left_iff]
    grind

/-- The entries of a table have the images under the same keys. -/
theorem entriesImage?_eq_some_iff {entries : List (String × Dynamic)}
    {fields : List (String × Structured)} :
    entriesImage? entries = some fields ↔ List.Forall₂
      (fun entry field => entry.1 = field.1 ∧ image? entry.2 = some field.2) entries fields := by
  induction entries generalizing fields with
  | nil => simp [entriesImage?, eq_comm]
  | cons entry entries ih =>
    obtain ⟨key, value⟩ := entry
    simp only [entriesImage?, Option.bind_eq_some_iff, Option.map_eq_some_iff, ih,
      List.forall₂_cons_left_iff]
    grind

theorem ofInt?_toInt (value : Int64) :
    Json.Number.ofInt? value.toInt = some (Dynamic.numberOfInt value) := by
  rw [Json.Number.ofInt?_eq_some_iff, Dynamic.numberOfInt]
  split
  · rfl
  · rename_i notNegative
    have nonneg : 0 ≤ value := Int64.not_lt.mp notNegative
    rw [Json.Number.integer?, Int64.toNat_toUInt64_of_le nonneg, Int64.toNatClampNeg,
      Int.toNat_of_nonneg (Int64.le_iff_toInt_le.mp nonneg)]

theorem ofInt?_toNat (value : UInt64) :
    Json.Number.ofInt? value.toNat = some (.natural value) :=
  Json.Number.ofInt?_eq_some_iff.mpr rfl

/-- Values that are related one by one may use where they come from. -/
theorem forall₂_of_mem {α β : Type} {R S : α → β → Prop} {before : List α} {after : List β}
    (implies : ∀ item ∈ before, ∀ value, R item value → S item value)
    (related : List.Forall₂ R before after) : List.Forall₂ S before after := by
  induction related with
  | nil => exact .nil
  | cons head _ ih =>
    obtain ⟨first, rest⟩ := List.forall_mem_cons.mp implies
    exact .cons (first _ head) (ih rest)

/-- Rule induction on images: a relation that holds of scalars and their images and is passed on by
lists and tables holds of every value and its image. -/
theorem image_induction {motive : Dynamic → Structured → Prop} (null : motive .null .null)
    (bool : ∀ value, motive (.bool value) (.bool value))
    (int : ∀ value, motive (.int value) (.number (Dynamic.numberOfInt value)))
    (uint : ∀ value, motive (.uint value) (.number (.natural value)))
    (float : ∀ word isFinite, motive (.float word) (.number (.float word isFinite)))
    (string : ∀ value, motive (.string value) (.string value))
    (list : ∀ items values, List.Forall₂ motive items values → motive (.list items) (.list values))
    (map : ∀ entries fields,
      List.Forall₂ (fun entry field => entry.1 = field.1 ∧ motive entry.2 field.2) entries fields →
      motive (.map entries) (.object fields))
    {value : Dynamic} {image : Structured} (image_eq : image? value = some image) :
    motive value image := by
  induction value generalizing image with
  | null => cases image_eq; exact null
  | bool value => cases image_eq; exact bool value
  | int value =>
    rw [image?, ofInt?_toInt] at image_eq
    cases image_eq
    exact int value
  | uint value =>
    rw [image?, ofInt?_toNat] at image_eq
    cases image_eq
    exact uint value
  | float word =>
    rw [image?] at image_eq
    split at image_eq
    · cases image_eq
      exact float word _
    · cases image_eq
  | string value => cases image_eq; exact string value
  | list items ih =>
    rw [image?, Option.map_eq_some_iff] at image_eq
    obtain ⟨values, values_eq, rfl⟩ := image_eq
    apply list
    rw [itemsImage?_eq_some_iff] at values_eq
    exact forall₂_of_mem (fun item item_mem value => ih item item_mem) values_eq
  | map entries ih =>
    rw [image?, Option.map_eq_some_iff] at image_eq
    obtain ⟨fields, fields_eq, rfl⟩ := image_eq
    apply map
    rw [entriesImage?_eq_some_iff] at fields_eq
    exact forall₂_of_mem (fun entry entry_mem field => And.imp_right (ih entry entry_mem)) fields_eq

/-- The document of a dynamic value is the document of its image. -/
theorem document_eq_of_image? {value : Dynamic} {image : Structured}
    (image_eq : image? value = some image) : value.document = .ok image.document := by
  refine image_induction (motive := fun value image => value.document = .ok image.document)
    ?null ?bool ?int ?uint ?float ?string ?list ?map image_eq
  case null => rfl
  case bool => exact fun _ => rfl
  case int => exact fun _ => rfl
  case uint => exact fun _ => rfl
  case string => exact fun _ => rfl
  case float =>
    intro word isFinite
    rw [Dynamic.document, dif_pos isFinite, document]
  case list =>
    intro items values images
    have items_eq : Dynamic.itemDocuments items = .ok (itemDocuments values) := by
      induction images with
      | nil => rfl
      | cons head _ tail_ih =>
        rw [Dynamic.itemDocuments, head, tail_ih, itemDocuments]
        rfl
    rw [Dynamic.document, items_eq, document]
    rfl
  case map =>
    intro entries fields images
    have entries_eq : Dynamic.entryDocuments entries = .ok (fieldDocuments fields) := by
      induction images with
      | nil => rfl
      | @cons entry field _ _ head _ tail_ih =>
        obtain ⟨key, value⟩ := entry
        obtain ⟨name, image⟩ := field
        obtain ⟨rfl, value_eq⟩ := head
        rw [Dynamic.entryDocuments, value_eq, tail_ih, fieldDocuments]
        rfl
    rw [Dynamic.document, entries_eq, document]
    rfl

/-- A value is written as its image is. -/
theorem text_of_image? {value : Dynamic} {image : Structured}
    (image_eq : image? value = some image) : value.text = .ok image.text := by
  rw [Dynamic.text, document_eq_of_image? image_eq]
  rfl

/-- An image is as deep as its value. -/
theorem depth_eq_of_image? {value : Dynamic} {image : Structured}
    (image_eq : image? value = some image) : image.depth = value.depth := by
  refine image_induction (motive := fun value image => image.depth = value.depth)
    ?null ?bool ?int ?uint ?float ?string ?list ?map image_eq
  case null => rfl
  case bool => exact fun _ => rfl
  case int => exact fun _ => rfl
  case uint => exact fun _ => rfl
  case float => exact fun _ _ => rfl
  case string => exact fun _ => rfl
  case list =>
    intro items values images
    rw [depth, Dynamic.depth, Nat.add_left_inj]
    induction images with
    | nil => rfl
    | cons head _ tail_ih => rw [itemsDepth, Dynamic.itemsDepth, head, tail_ih]
  case map =>
    intro entries fields images
    rw [depth, Dynamic.depth, Nat.add_left_inj]
    induction images with
    | nil => rfl
    | @cons entry field _ _ head _ tail_ih =>
      obtain ⟨key, value⟩ := entry
      obtain ⟨name, image⟩ := field
      rw [fieldsDepth, Dynamic.entriesDepth, head.2, tail_ih]

/-- The objects of an image are ordered as the tables of its value are. -/
theorem ordered_of_image? {value : Dynamic} {image : Structured}
    (image_eq : image? value = some image) (ordered : value.Ordered) : image.Ordered := by
  revert ordered
  refine image_induction (motive := fun value image => value.Ordered → image.Ordered)
    ?null ?bool ?int ?uint ?float ?string ?list ?map image_eq
  case null => exact fun _ => trivial
  case bool => exact fun _ _ => trivial
  case int => exact fun _ _ => trivial
  case uint => exact fun _ _ => trivial
  case float => exact fun _ _ _ => trivial
  case string => exact fun _ _ => trivial
  case list =>
    intro items values images ordered
    rw [Dynamic.Ordered] at ordered
    rw [Ordered]
    induction images with
    | nil => trivial
    | cons head _ tail_ih => exact ⟨head ordered.1, tail_ih ordered.2⟩
  case map =>
    intro entries fields images ordered
    obtain ⟨keys_ordered, values_ordered⟩ := ordered
    constructor
    · clear values_ordered
      have same_keys : fields.map (·.1) = entries.map (·.1) := by
        clear keys_ordered
        induction images with
        | nil => rfl
        | cons head _ tail_ih => rw [List.map_cons, List.map_cons, head.1, tail_ih]
      unfold Entries.Ordered at keys_ordered ⊢
      rw [← List.pairwise_map (f := Prod.fst) (R := (· < ·))] at keys_ordered ⊢
      rwa [same_keys]
    · clear keys_ordered
      induction images with
      | nil => trivial
      | @cons entry field _ _ head _ tail_ih =>
        obtain ⟨key, value⟩ := entry
        obtain ⟨name, image⟩ := field
        exact ⟨head.2 values_ordered.1, tail_ih values_ordered.2⟩

theorem exists_itemsImage?_iff {items : List Dynamic} :
    (∃ values, itemsImage? items = some values) ↔
      ∀ item ∈ items, ∃ value, image? item = some value := by
  induction items with
  | nil => simp [itemsImage?]
  | cons item items ih =>
    rw [List.forall_mem_cons, ← ih]
    simp only [itemsImage?, Option.bind_eq_some_iff, Option.map_eq_some_iff]
    grind

theorem exists_entriesImage?_iff {entries : List (String × Dynamic)} :
    (∃ fields, entriesImage? entries = some fields) ↔
      ∀ entry ∈ entries, ∃ value, image? entry.2 = some value := by
  induction entries with
  | nil => simp [entriesImage?]
  | cons entry entries ih =>
    obtain ⟨key, value⟩ := entry
    rw [List.forall_mem_cons, ← ih]
    simp only [entriesImage?, Option.bind_eq_some_iff, Option.map_eq_some_iff]
    grind

/-- A value has an image exactly when all its words are finite. -/
theorem exists_image?_iff {value : Dynamic} :
    (∃ image, image? value = some image) ↔ value.AllFinite := by
  induction value with
  | null => simp [image?, Dynamic.AllFinite, Dynamic.words]
  | bool value => simp [image?, Dynamic.AllFinite, Dynamic.words]
  | int value => simp [image?, ofInt?_toInt, Dynamic.AllFinite, Dynamic.words]
  | uint value => simp [image?, ofInt?_toNat, Dynamic.AllFinite, Dynamic.words]
  | string value => simp [image?, Dynamic.AllFinite, Dynamic.words]
  | float word =>
    cases isFinite : word.isFinite <;>
      simp [image?, isFinite, Dynamic.AllFinite, Dynamic.words]
  | list items ih =>
    have items_iff : (∀ item ∈ items, ∃ value, image? item = some value) ↔
        ∀ item ∈ items, item.AllFinite := forall₂_congr ih
    rw [Dynamic.allFinite_list_iff, ← items_iff, ← exists_itemsImage?_iff]
    simp [image?]
  | map entries ih =>
    have entries_iff : (∀ entry ∈ entries, ∃ value, image? entry.2 = some value) ↔
        ∀ entry ∈ entries, entry.2.AllFinite := forall₂_congr ih
    rw [Dynamic.allFinite_map_iff, ← entries_iff, ← exists_entriesImage?_iff]
    simp [image?]

end Structured

namespace Dynamic

theorem exists_document_of_firstNonFinite?_eq_none {value : Dynamic}
    (finite : value.firstNonFinite? = none) : ∃ document, value.document = .ok document := by
  rw [firstNonFinite?_eq_none_iff, ← Structured.exists_image?_iff] at finite
  obtain ⟨image, image_eq⟩ := finite
  exact ⟨_, Structured.document_eq_of_image? image_eq⟩

/-- Writing fails at the first word that is not finite. -/
theorem document_eq_error {value : Dynamic} {word : Binary64}
    (first : value.firstNonFinite? = some word) : value.document = .error ⟨word⟩ := by
  induction value with
  | null => cases first
  | bool value => cases first
  | int value => cases first
  | uint value => cases first
  | string value => cases first
  | float other =>
    rw [firstNonFinite?] at first
    split at first
    · cases first
    · rename_i notFinite
      cases first
      rw [document, dif_neg notFinite]
  | list items ih =>
    rw [firstNonFinite?] at first
    have items_eq : itemDocuments items = .error ⟨word⟩ := by
      induction items with
      | nil => cases first
      | cons item items items_ih =>
        rw [itemsNonFinite?] at first
        rw [itemDocuments]
        cases head : item.firstNonFinite? with
        | some other =>
          rw [head, Option.some_or] at first
          rw [ih item List.mem_cons_self (head.trans first)]
          rfl
        | none =>
          -- The item is written, so the error is that of the others.
          rw [head, Option.none_or] at first
          obtain ⟨document, document_eq⟩ := exists_document_of_firstNonFinite?_eq_none head
          rw [document_eq,
            items_ih (fun other other_mem => ih other (List.mem_cons_of_mem _ other_mem)) first]
          rfl
    rw [document, items_eq]
    rfl
  | map entries ih =>
    rw [firstNonFinite?] at first
    have entries_eq : entryDocuments entries = .error ⟨word⟩ := by
      induction entries with
      | nil => cases first
      | cons entry entries entries_ih =>
        obtain ⟨key, value⟩ := entry
        rw [entriesNonFinite?] at first
        rw [entryDocuments]
        cases head : value.firstNonFinite? with
        | some other =>
          rw [head, Option.some_or] at first
          rw [ih (key, value) List.mem_cons_self (head.trans first)]
          rfl
        | none =>
          rw [head, Option.none_or] at first
          obtain ⟨document, document_eq⟩ := exists_document_of_firstNonFinite?_eq_none head
          rw [document_eq,
            entries_ih (fun other other_mem => ih other (List.mem_cons_of_mem _ other_mem)) first]
          rfl
    rw [document, entries_eq]
    rfl

theorem text_eq_error {value : Dynamic} {word : Binary64}
    (first : value.firstNonFinite? = some word) : value.text = .error ⟨word⟩ := by
  rw [text, document_eq_error first]
  rfl

end Dynamic
end PolicyReview
