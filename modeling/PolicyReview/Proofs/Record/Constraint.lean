import PolicyReview.Proofs.Dynamic.Path
import PolicyReview.Proofs.Record.RoundTrip

/-!
# References of either form

A table with a metadata key is a constraint object and is named by its metadata alone; any other
table is named at the top.  Whatever is no table of either form is refused, with the place where the
name was looked for.  A reference is written without metadata, so it is read back from its flat
form.
-/

namespace PolicyReview
namespace ConstraintRef

/-- The name of a table: that in its metadata where it has a metadata key, and the one at the top
where it has none. -/
inductive Names (entries : DynamicMap) (name : String) : Prop where
  | object {metadata : DynamicMap}
    (has_metadata : Entries.find? entries "metadata" = some (.map metadata))
    (has_name : Entries.find? metadata "name" = some (.string name)) : Names entries name
  | flat (no_metadata : Entries.find? entries "metadata" = none)
    (has_name : Entries.find? entries "name" = some (.string name)) : Names entries name

/-- The string under a key of a table, or the empty string where the key is absent or holds
something else. -/
def TextUnder (entries : DynamicMap) (key text : String) : Prop :=
  match Entries.find? entries key with
  | some (.string found) => text = found
  | _ => text = ""

/-- The table refers to the constraint. -/
structure RefersTo (entries : DynamicMap) (reference : ConstraintRef) : Prop where
  name : Names entries reference.name
  apiVersion : TextUnder entries "apiVersion" reference.apiVersion
  kind : TextUnder entries "kind" reference.kind

/-- Where the name is looked for, and how an error names the place. -/
inductive NamePlace (value : Dynamic) : List String → String → Prop where
  | metadata {entries : DynamicMap} {found : Dynamic} (is_table : value = .map entries)
    (has_metadata : Entries.find? entries "metadata" = some found) :
    NamePlace value ["metadata", "name"] "metadata.name"
  | top (no_metadata : ∀ entries, value = .map entries →
      Entries.find? entries "metadata" = none) : NamePlace value ["name"] "name"

/-- Why a value refers to no constraint: the place of the name does not exist, or it holds no
string. -/
inductive Refuses (value : Dynamic) : FieldError → Prop where
  | missing {path : List String} {field : String} (place : NamePlace value path field)
    (absent : value.getPath? path = none) : Refuses value (.missing field)
  | notString {path : List String} {field : String} {found : Dynamic}
    (place : NamePlace value path field) (present : value.getPath? path = some found)
    (noString : ∀ text, found ≠ .string text) : Refuses value (.notString field found.typeName)

variable {value : Dynamic} {reference : ConstraintRef}

theorem textUnder_iff (entries : DynamicMap) (key text : String) :
    TextUnder entries key text ↔ text = textAt (.map entries) key := by
  rw [TextUnder, textAt, Dynamic.get?_map]
  cases Entries.find? entries key with
  | none => simp
  | some found => cases found <;> simp [Dynamic.asString?]

/-- The name is read along the path to its place. -/
theorem exists_namePlace (value : Dynamic) :
    ∃ path, NamePlace value path (".".intercalate path) ∧
      ofDynamic value = (value.getPathString path).map (named value) := by
  cases has_metadata : value.get? "metadata" with
  | some found =>
    obtain ⟨entries, is_table, found_eq⟩ := Dynamic.get?_eq_some_iff.mp has_metadata
    refine ⟨_, .metadata is_table found_eq, ?_⟩
    rw [ofDynamic, has_metadata, Option.isSome_some, if_pos rfl, ofObject]
    cases value.getPathString ["metadata", "name"] <;> rfl
  | none =>
    refine ⟨_, .top (Dynamic.get?_eq_none_iff.mp has_metadata), ?_⟩
    rw [ofDynamic, has_metadata, Option.isSome_none, if_neg Bool.false_ne_true]
    cases value.getPathString ["name"] <;> rfl

/-- There is one place for the name. -/
theorem NamePlace.unique {path other : List String} {field otherField : String}
    (place : NamePlace value path field) (otherPlace : NamePlace value other otherField) :
    path = other ∧ field = otherField := by
  cases place with
  | metadata is_table has_metadata =>
    cases otherPlace with
    | metadata _ _ => exact ⟨rfl, rfl⟩
    | top no_metadata => cases has_metadata.symm.trans (no_metadata _ is_table)
  | top no_metadata =>
    cases otherPlace with
    | metadata is_table has_metadata => cases has_metadata.symm.trans (no_metadata _ is_table)
    | top _ => exact ⟨rfl, rfl⟩

theorem ofDynamic_eq_error_iff {error : FieldError} :
    ofDynamic value = .error error ↔ Refuses value error := by
  obtain ⟨path, place, ofDynamic_eq⟩ := exists_namePlace value
  have path_error : ofDynamic value = .error error ↔ value.getPathString path = .error error := by
    rw [ofDynamic_eq]
    cases value.getPathString path <;> simp [Except.map]
  rw [path_error, Dynamic.getPathString_eq_error_iff]
  constructor
  · rintro (⟨absent, rfl⟩ | ⟨found, present, noString, rfl⟩)
    · exact .missing place absent
    · exact .notString place present noString
  · rintro (⟨otherPlace, absent⟩ | ⟨otherPlace, present, noString⟩)
    · obtain ⟨rfl, rfl⟩ := place.unique otherPlace
      exact .inl ⟨absent, rfl⟩
    · obtain ⟨rfl, rfl⟩ := place.unique otherPlace
      exact .inr ⟨_, present, noString, rfl⟩

/-- The place of the name holds a string exactly when the value is a table with that name. -/
theorem getPath?_eq_string_iff {path : List String} {field name : String}
    (place : NamePlace value path field) :
    value.getPath? path = some (.string name) ↔
      ∃ entries, value = .map entries ∧ Names entries name := by
  cases place with
  | @metadata entries found is_table has_metadata =>
    subst is_table
    simp only [Dynamic.getPath?, Dynamic.get?_map, has_metadata, Option.bind_some,
      Option.bind_eq_some_iff, Dynamic.get?_eq_some_iff]
    constructor
    · rintro ⟨_, ⟨metadata, rfl, has_name⟩, rest⟩
      cases rest
      exact ⟨entries, rfl, .object has_metadata has_name⟩
    · rintro ⟨_, ⟨⟩, ⟨has_table, has_name⟩ | ⟨no_metadata, _⟩⟩
      · cases has_metadata.symm.trans has_table
        exact ⟨_, ⟨_, rfl, has_name⟩, rfl⟩
      · cases has_metadata.symm.trans no_metadata
  | top no_metadata =>
    simp only [Dynamic.getPath?, Option.bind_eq_some_iff, Dynamic.get?_eq_some_iff]
    constructor
    · rintro ⟨_, ⟨entries, rfl, has_name⟩, rest⟩
      cases rest
      exact ⟨entries, rfl, .flat (no_metadata entries rfl) has_name⟩
    · rintro ⟨entries, rfl, ⟨has_table, _⟩ | ⟨_, has_name⟩⟩
      · cases has_table.symm.trans (no_metadata entries rfl)
      · exact ⟨_, ⟨entries, rfl, has_name⟩, rfl⟩

theorem ofDynamic_eq_ok_iff :
    ofDynamic value = .ok reference ↔
      ∃ entries, value = .map entries ∧ RefersTo entries reference := by
  obtain ⟨path, place, ofDynamic_eq⟩ := exists_namePlace value
  have path_ok : ofDynamic value = .ok reference ↔
      value.getPathString path = .ok reference.name ∧ named value reference.name = reference := by
    rw [ofDynamic_eq]
    constructor
    · intro mapped
      obtain ⟨name, name_read, rfl⟩ := exists_of_map_eq_ok mapped
      exact ⟨name_read, rfl⟩
    · rintro ⟨name_read, named_eq⟩
      rw [name_read, Except.map, named_eq]
  rw [path_ok, Dynamic.getPathString_eq_ok_iff, getPath?_eq_string_iff place]
  constructor
  · rintro ⟨⟨entries, rfl, names⟩, named_eq⟩
    refine ⟨entries, rfl, names, ?_, ?_⟩
    · rw [textUnder_iff, ← named_eq, named]
    · rw [textUnder_iff, ← named_eq, named]
  · rintro ⟨entries, rfl, names, apiVersion, kind⟩
    rw [textUnder_iff] at apiVersion kind
    refine ⟨⟨entries, rfl, names⟩, ?_⟩
    rw [named, ← apiVersion, ← kind]

theorem ofDynamic_of_ofObject (object_read : ofObject value = .ok reference) :
    ofDynamic value = .ok reference := by
  obtain ⟨name, name_read, _⟩ := exists_of_bind_eq_ok object_read
  -- The path begins with the metadata key, so the value has one.
  obtain ⟨metadata, has_metadata, _⟩ :=
    Option.bind_eq_some_iff.mp (Dynamic.getPathString_eq_ok_iff.mp name_read)
  rw [ofDynamic, has_metadata, Option.isSome_some, if_pos rfl, object_read]

theorem depth_document_le (reference : ConstraintRef) :
    reference.document.depth ≤ Json.nestingLimit := by
  have depth_eq : reference.document.depth = 1 := rfl
  rw [depth_eq]
  decide

/-- The text of a reference is read as a table without metadata that refers to the constraint. -/
theorem exists_flat (reference : ConstraintRef) :
    ∃ entries, Dynamic.ofText reference.document.text = .ok (.map entries) ∧
      Entries.find? entries "metadata" = none ∧ ofDynamic (.map entries) = .ok reference := by
  have spelled := reference.spelledBy_document
  rw [SpelledBy, ofDocument_document] at spelled
  exact ⟨_, (Json.readValue_means Dynamic.assembly).readAll_text
    reference.depth_document_le reference.ofDocument_document, by simp [Entries.find?], spelled⟩

/-- A value refers to a constraint in one of two forms, and any other value is refused at the place
of its name.  A name at the top does not stand in for one in the metadata, and a reference is read
back from its flat form. -/
theorem ofDynamic_decided (value : Dynamic) :
    (∀ reference, ofDynamic value = .ok reference ↔
      ∃ entries, value = .map entries ∧ RefersTo entries reference) ∧
    (∀ error, ofDynamic value = .error error ↔ Refuses value error) ∧
    (∀ entries metadata, value = .map entries →
      Entries.find? entries "metadata" = some metadata →
      (∀ name, metadata.get? "name" ≠ some (.string name)) →
      ∃ error, ofDynamic value = .error error) ∧
    (∀ reference, ofObject value = .ok reference → ofDynamic value = .ok reference) ∧
    ∀ reference, ofDynamic value = .ok reference →
      ofText reference.document.text = .ok reference ∧
      ∃ entries, Dynamic.ofText reference.document.text = .ok (.map entries) ∧
        Entries.find? entries "metadata" = none ∧ ofDynamic (.map entries) = .ok reference := by
  refine ⟨fun _ => ofDynamic_eq_ok_iff, fun _ => ofDynamic_eq_error_iff, ?_,
    fun _ => ofDynamic_of_ofObject, fun reference _ => ⟨?_, reference.exists_flat⟩⟩
  · rintro entries metadata rfl has_metadata unnamed
    cases refers : ofDynamic (.map entries) with
    | error error => exact ⟨error, rfl⟩
    | ok reference =>
      obtain ⟨_, ⟨⟩, ⟨has_table, has_name⟩ | ⟨no_metadata, _⟩, _⟩ := ofDynamic_eq_ok_iff.mp refers
      · cases has_metadata.symm.trans has_table
        exact absurd has_name (unnamed _)
      · cases has_metadata.symm.trans no_metadata
  · exact read_means.readAll_text reference.depth_document_le reference.spelledBy_document

/-- Of two names the one in the metadata counts, and beside null metadata none does. -/
theorem ofDynamic_decided_of_two_names :
    ofDynamic (.map [("apiVersion", .int 1), ("kind", .string "K"),
      ("metadata", .map [("name", .string "inner")]), ("name", .string "outer")]) =
        .ok ⟨"", "K", "inner"⟩ ∧
    ofText (document ⟨"", "K", "inner"⟩).text = .ok ⟨"", "K", "inner"⟩ ∧
    ofDynamic (.map [("metadata", .null), ("name", .string "outer")]) =
      .error (.missing "metadata.name") := by
  obtain ⟨accepted, _, _, _, read_back⟩ := ofDynamic_decided (.map [("apiVersion", .int 1),
    ("kind", .string "K"), ("metadata", .map [("name", .string "inner")]),
    ("name", .string "outer")])
  obtain ⟨_, refused, _⟩ := ofDynamic_decided
    (.map [("metadata", .null), ("name", .string "outer")])
  have inner := (accepted ⟨"", "K", "inner"⟩).mpr ⟨_, rfl, .object rfl rfl, rfl, rfl⟩
  exact ⟨inner, (read_back _ inner).1, (refused _).mpr (.missing (.metadata rfl rfl) rfl)⟩

end ConstraintRef
end PolicyReview
