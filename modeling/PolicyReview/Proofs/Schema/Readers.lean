import PolicyReview.Proofs.Json.Distinct
import PolicyReview.Proofs.Record.Insight
import PolicyReview.Proofs.Record.Violation
import PolicyReview.Proofs.Schema.Validity

/-!
# Schemas and readers

Of the objects that repeat no name, a reader of findings takes exactly those that the schema
accepts.  The readers of what the engine answers take every such object that the schema accepts,
unless a constraint in it has a metadata member: that makes it a constraint object, which the reader
asks for a name that the schema does not know of.
-/

namespace PolicyReview

open Json (Document Given valuesUnder)
open Schema (Kind)

namespace Dynamic

/-- In the value of an object, the last member with a key is found. -/
theorem get?_ofDocument_object (members : List (String × Document)) (key : String) :
    (assembly.ofDocument (.object members)).get? key =
      ((valuesUnder key members).getLast?).map assembly.ofDocument := by
  have value_eq : assembly.ofDocument (.object members) =
      .map (Entries.ofMembers (members.map (Prod.map id assembly.ofDocument))) := by
    rw [Json.Assembly.ofDocument, Json.Assembly.ofMembers_eq_map]
    rfl
  rw [value_eq, get?, asMap?, Option.bind_some, Entries.find?_ofMembers, List.filter_map,
    valuesUnder, List.getLast?_map, List.getLast?_map, Option.map_map, Option.map_map]
  rfl

end Dynamic

/-- Of an object without repeated names, each member of a record is given once; one that need not be
there may be missing. -/
theorem Schema.Record.describes_iff_of_nodup {record : Record} {root : Json.Document}
    {members : List (String × Json.Document)} (names_nodup : (members.map (·.1)).Nodup) :
    record.Describes root (.object members) ↔ ∀ property ∈ record.properties,
      (property.isRequired = false ∧ valuesUnder property.name members = []) ∨
        ∃ part, valuesUnder property.name members = [part] ∧
          Valid root property.kind.document part := by
  rw [describes_object_iff]
  refine forall₂_congr fun property _ => ?_
  rcases Json.valuesUnder_of_nodup names_nodup property.name with none | ⟨part, once⟩
  · simp [none]
  · simp [once]

section Findings

variable {root : Document} {members : List (String × Document)}

/-- What the schema asks of the members of a violation. -/
theorem Violation.describes_iff (names_nodup : (members.map (·.1)).Nodup) :
    Schema.violationRecord.Describes root (.object members) ↔
      (∃ text, valuesUnder "constraint" members = [.string text]) ∧
      (∃ text, valuesUnder "resource" members = [.string text]) ∧
      (∃ text, valuesUnder "message" members = [.string text]) ∧
      ∃ metadata, valuesUnder "metadata" members = [metadata] := by
  rw [Schema.Record.describes_iff_of_nodup names_nodup]
  simp [Schema.violationRecord, Schema.Property.isRequired, Kind.valid_string_iff,
    Kind.valid_anything]

theorem Violation.exists_spelledBy_iff (names_nodup : (members.map (·.1)).Nodup) :
    (∃ violation, SpelledBy (.object members) violation) ↔
      Schema.violationRecord.Describes root (.object members) := by
  rw [describes_iff names_nodup]
  constructor
  · rintro ⟨violation, _, metadata, ⟨⟩, constraint, resource, message, metadata_under, -⟩
    exact ⟨⟨_, constraint⟩, ⟨_, resource⟩, ⟨_, message⟩, metadata, metadata_under⟩
  · rintro ⟨⟨constraint, constraint_under⟩, ⟨resource, resource_under⟩, ⟨message, message_under⟩,
      metadata, metadata_under⟩
    exact ⟨⟨constraint, resource, message, Structured.assembly.ofDocument metadata⟩, members,
      metadata, rfl, constraint_under, resource_under, message_under, metadata_under, rfl⟩

/-- What the schema asks of the members of an insight. -/
theorem Insight.describes_iff (names_nodup : (members.map (·.1)).Nodup) :
    Schema.insightRecord.Describes root (.object members) ↔
      (∃ text, valuesUnder "description" members = [.string text]) ∧
      (∃ names, valuesUnder "targetResources" members = [.list names] ∧
        ∀ name ∈ names, ∃ text, name = .string text) ∧
      (∃ text, valuesUnder "insightSubtype" members = [.string text]) ∧
      (∃ content, valuesUnder "content" members = [.object content]) ∧
      ∃ text, valuesUnder "category" members = [.string text] := by
  rw [Schema.Record.describes_iff_of_nodup names_nodup]
  simp [Schema.insightRecord, Schema.Property.isRequired, Kind.valid_string_iff,
    Kind.valid_list_iff, Kind.valid_table_iff, Kind.valid_anything]

theorem Insight.exists_spelledBy_iff (names_nodup : (members.map (·.1)).Nodup) :
    (∃ insight, SpelledBy (.object members) insight) ↔
      Schema.insightRecord.Describes root (.object members) := by
  rw [describes_iff names_nodup]
  constructor
  · rintro ⟨insight, _, content, ⟨⟩, description, targets, subtype, content_under, -, category⟩
    refine ⟨⟨_, description⟩, ⟨_, targets, ?_⟩, ⟨_, subtype⟩, ⟨_, content_under⟩, _, category⟩
    simp
  · rintro ⟨⟨description, description_under⟩, ⟨names, targets_under, strings⟩,
      ⟨subtype, subtype_under⟩, ⟨content, content_under⟩, category, category_under⟩
    obtain ⟨targets, spelled⟩ := exists_forall₂ strings
    rw [forall₂_string_iff.mp spelled] at targets_under
    exact ⟨⟨description, targets, subtype,
      Entries.ofMembers (Dynamic.assembly.ofMembers content), category⟩, members, content, rfl,
      description_under, targets_under, subtype_under, content_under, rfl, category_under⟩

end Findings

/-- The values under a name in an object; other documents have none. -/
def Json.Document.under (name : String) : Document → List Document
  | .object members => valuesUnder name members
  | _ => []

/-- The parts of a list or an object; a scalar has none. -/
def Json.Document.parts : Document → List Document
  | .scalar _ => []
  | .list items => items
  | .object members => members.map (·.2)

namespace ConstraintRef

/-- An object without metadata member; documents that are no objects are flat as well. -/
def Flat (document : Document) : Prop :=
  document.under "metadata" = []

/-- What the schema asks of the members of a reference. -/
theorem describes_iff {root : Document} {members : List (String × Document)}
    (names_nodup : (members.map (·.1)).Nodup) :
    Schema.constraintRecord.Describes root (.object members) ↔
      (∃ text, valuesUnder "apiVersion" members = [.string text]) ∧
      (∃ text, valuesUnder "kind" members = [.string text]) ∧
      ∃ text, valuesUnder "name" members = [.string text] := by
  rw [Schema.Record.describes_iff_of_nodup names_nodup]
  simp [Schema.constraintRecord, Schema.Property.isRequired, Kind.valid_string_iff]

/-- A flat reference is named by its member. -/
theorem exists_ofDynamic_eq_ok {value : Dynamic} {name : String}
    (without_metadata : value.get? "metadata" = none)
    (named_eq : value.get? "name" = some (.string name)) :
    ∃ reference, ofDynamic value = .ok reference := by
  have name_eq : value.getPathString ["name"] = .ok name := by
    simp only [Dynamic.getPathString, Dynamic.getPath?, named_eq, Option.bind_some,
      Dynamic.asString?]
  rw [ofDynamic, without_metadata, name_eq]
  exact ⟨named value name, rfl⟩

theorem exists_spelledBy {root document : Document} (distinct : document.NamesDistinct)
    (describes : Schema.constraintRecord.Describes root document) (flat : Flat document) :
    ∃ reference, SpelledBy document reference := by
  obtain ⟨members, rfl⟩ := describes.exists_members
  have names_nodup := (Document.namesDistinct_object_iff.mp distinct).1
  obtain ⟨-, -, name, name_under⟩ := (describes_iff names_nodup).mp describes
  have metadata_under : valuesUnder "metadata" members = [] := flat
  have without_metadata :
      (Dynamic.assembly.ofDocument (.object members)).get? "metadata" = none := by
    rw [Dynamic.get?_ofDocument_object, metadata_under]
    rfl
  have named_eq : (Dynamic.assembly.ofDocument (.object members)).get? "name" =
      some (.string name) := by
    rw [Dynamic.get?_ofDocument_object, name_under]
    rfl
  exact exists_ofDynamic_eq_ok without_metadata named_eq

end ConstraintRef

namespace EvalResult

/-- The documents in constraint position in a result. -/
def references (document : Document) : List Document :=
  document.under "constraint"

/-- What the schema asks of the members of a result. -/
theorem describes_iff {schema : Schema.Document} (defines : schema.Defines Schema.constraintRecord)
    {members : List (String × Document)} (names_nodup : (members.map (·.1)).Nodup) :
    Schema.evalResultRecord.Describes schema.document (.object members) ↔
      (∃ text, valuesUnder "msg" members = [.string text]) ∧
      (valuesUnder "metadata" members = [] ∨
        ∃ metadata, valuesUnder "metadata" members = [.object metadata]) ∧
      ∃ constraint, valuesUnder "constraint" members = [constraint] ∧
        Schema.constraintRecord.Describes schema.document constraint := by
  have constraint_iff {value : Document} :
      Schema.Valid schema.document (Kind.record "ConstraintRef").document value ↔ _ :=
    defines.valid_record_iff
  rw [Schema.Record.describes_iff_of_nodup names_nodup]
  simp [Schema.evalResultRecord, Schema.Property.isRequired, Kind.valid_string_iff,
    Kind.valid_table_iff, Kind.valid_anything, constraint_iff]

theorem exists_spelledBy {schema : Schema.Document}
    (defines : schema.Defines Schema.constraintRecord) {document : Document}
    (distinct : document.NamesDistinct)
    (describes : Schema.evalResultRecord.Describes schema.document document)
    (flat : ∀ reference ∈ references document, ConstraintRef.Flat reference) :
    ∃ result, SpelledBy document result := by
  obtain ⟨members, rfl⟩ := describes.exists_members
  have names_nodup := (Document.namesDistinct_object_iff.mp distinct).1
  obtain ⟨⟨msg, msg_under⟩, metadata_under, constraint, constraint_under, constraint_describes⟩ :=
    (describes_iff defines names_nodup).mp describes
  rw [references, Document.under, constraint_under, List.forall_mem_singleton] at flat
  obtain ⟨reference, spelled⟩ := ConstraintRef.exists_spelledBy
    (distinct.of_valuesUnder_eq constraint_under) constraint_describes flat
  obtain ⟨metadata, given⟩ : ∃ metadata, Given MetadataSpelledBy (valuesUnder "metadata" members)
      metadata := by
    rcases metadata_under with missing | ⟨metadata, once⟩
    · exact ⟨none, missing ▸ .absent⟩
    · exact ⟨some _, Json.given_some_iff.mpr ⟨_, once, .object metadata⟩⟩
  exact ⟨⟨msg, metadata.getD [], reference⟩, members, rfl, msg_under, ⟨metadata, given, rfl⟩,
    constraint, constraint_under, spelled⟩

end EvalResult

namespace Response

/-- The documents in constraint position in a response. -/
def references (document : Document) : List Document :=
  ((document.under "results").flatMap Document.parts).flatMap EvalResult.references

/-- What the schema asks of the members of a response. -/
theorem describes_iff {schema : Schema.Document}
    (defines_result : schema.Defines Schema.evalResultRecord)
    {members : List (String × Document)} (names_nodup : (members.map (·.1)).Nodup) :
    Schema.responseRecord.Describes schema.document (.object members) ↔
      (∃ text, valuesUnder "target" members = [.string text]) ∧
      (valuesUnder "results" members = [] ∨
        ∃ results, valuesUnder "results" members = [.list results] ∧
          ∀ result ∈ results, Schema.evalResultRecord.Describes schema.document result) := by
  have result_iff {value : Document} :
      Schema.Valid schema.document (Kind.record "EvalResult").document value ↔ _ :=
    defines_result.valid_record_iff
  rw [Schema.Record.describes_iff_of_nodup names_nodup]
  simp [Schema.responseRecord, Schema.Property.isRequired, Kind.valid_string_iff,
    Kind.valid_list_iff, result_iff]

theorem exists_spelledBy {schema : Schema.Document}
    (defines : schema.Defines Schema.constraintRecord)
    (defines_result : schema.Defines Schema.evalResultRecord) {document : Document}
    (distinct : document.NamesDistinct)
    (describes : Schema.responseRecord.Describes schema.document document)
    (flat : ∀ reference ∈ references document, ConstraintRef.Flat reference) :
    ∃ response, SpelledBy document response := by
  obtain ⟨members, rfl⟩ := describes.exists_members
  have names_nodup := (Document.namesDistinct_object_iff.mp distinct).1
  obtain ⟨⟨target, target_under⟩, results_under⟩ :=
    (describes_iff defines_result names_nodup).mp describes
  obtain ⟨results, given⟩ : ∃ results, Given ResultsSpelledBy (valuesUnder "results" members)
      results := by
    rcases results_under with missing | ⟨items, once, described⟩
    · exact ⟨none, missing ▸ .absent⟩
    · have items_distinct := Document.namesDistinct_list_iff.mp (distinct.of_valuesUnder_eq once)
      simp only [references, Document.under, once, List.flatMap_singleton, Document.parts] at flat
      obtain ⟨results, spelled⟩ := exists_forall₂ fun item item_mem =>
        EvalResult.exists_spelledBy defines (items_distinct item item_mem) (described item item_mem)
          fun reference reference_mem =>
            flat reference (List.mem_flatMap.mpr ⟨item, item_mem, reference_mem⟩)
      exact ⟨some results, Json.given_some_iff.mpr ⟨_, once, items, rfl, spelled⟩⟩
  exact ⟨⟨target, results.getD []⟩, members, rfl, target_under, results, given, rfl⟩

end Response

namespace Responses

/-- The documents in constraint position in responses. -/
def references (document : Document) : List Document :=
  ((document.under "byTarget").flatMap Document.parts).flatMap Response.references

/-- What the schema asks of the members of responses. -/
theorem describes_iff {schema : Schema.Document}
    (defines_response : schema.Defines Schema.responseRecord)
    {members : List (String × Document)} (names_nodup : (members.map (·.1)).Nodup) :
    Schema.responsesRecord.Describes schema.document (.object members) ↔
      valuesUnder "byTarget" members = [] ∨
        ∃ table, valuesUnder "byTarget" members = [.object table] ∧
          ∀ member ∈ table, Schema.responseRecord.Describes schema.document member.2 := by
  have response_iff {value : Document} :
      Schema.Valid schema.document (Kind.record "Response").document value ↔ _ :=
    defines_response.valid_record_iff
  rw [Schema.Record.describes_iff_of_nodup names_nodup]
  simp [Schema.responsesRecord, Schema.Property.isRequired, Kind.valid_table_iff, response_iff]

theorem exists_spelledBy {schema : Schema.Document}
    (defines : schema.Defines Schema.constraintRecord)
    (defines_result : schema.Defines Schema.evalResultRecord)
    (defines_response : schema.Defines Schema.responseRecord) {document : Document}
    (distinct : document.NamesDistinct)
    (describes : Schema.responsesRecord.Describes schema.document document)
    (flat : ∀ reference ∈ references document, ConstraintRef.Flat reference) :
    ∃ responses, SpelledBy document responses := by
  obtain ⟨members, rfl⟩ := describes.exists_members
  have names_nodup := (Document.namesDistinct_object_iff.mp distinct).1
  obtain ⟨table, given⟩ : ∃ table, Given TableSpelledBy (valuesUnder "byTarget" members) table := by
    rcases (describes_iff defines_response names_nodup).mp describes with
      missing | ⟨entries, once, described⟩
    · exact ⟨none, missing ▸ .absent⟩
    · obtain ⟨-, entries_distinct⟩ :=
        Document.namesDistinct_object_iff.mp (distinct.of_valuesUnder_eq once)
      simp only [references, Document.under, once, List.flatMap_singleton, Document.parts] at flat
      obtain ⟨responses, spelled⟩ : ∃ responses,
          Json.EntriesSpelled Response.SpelledBy entries responses := by
        refine exists_forall₂ fun entry entry_mem => ?_
        obtain ⟨response, spelled⟩ := Response.exists_spelledBy defines defines_result
          (entries_distinct entry entry_mem) (described entry entry_mem)
          fun reference reference_mem => flat reference
            (List.mem_flatMap.mpr ⟨entry.2, List.mem_map_of_mem entry_mem, reference_mem⟩)
        exact ⟨(entry.1, response), rfl, spelled⟩
      exact ⟨some _, Json.given_some_iff.mpr ⟨_, once, entries, responses, rfl, spelled, rfl⟩⟩
  exact ⟨⟨table.getD []⟩, members, rfl, table, given, rfl⟩

end Responses

/-- Of the texts of objects that repeat no name, those that a schema accepts are read, and findings
are read from no others. -/
theorem readers_accept_what_schemas_accept (text : String) (members : List (String × Document))
    (text_read : Document.ofText text = .ok (.object members))
    (distinct : (Document.object members).NamesDistinct) :
    ((∃ violation, Violation.ofText text = .ok violation) ↔
      Schema.violation.Accepts (.object members)) ∧
    ((∃ insight, Insight.ofText text = .ok insight) ↔
      Schema.insight.Accepts (.object members)) ∧
    (Schema.constraint.Accepts (.object members) → ConstraintRef.Flat (.object members) →
      ∃ reference, ConstraintRef.ofText text = .ok reference) ∧
    (Schema.evalResult.Accepts (.object members) →
      (∀ reference ∈ EvalResult.references (.object members), ConstraintRef.Flat reference) →
      ∃ result, EvalResult.ofText text = .ok result) ∧
    (Schema.response.Accepts (.object members) →
      (∀ reference ∈ Response.references (.object members), ConstraintRef.Flat reference) →
      ∃ response, Response.ofText text = .ok response) ∧
    (Schema.responses.Accepts (.object members) →
      (∀ reference ∈ Responses.references (.object members), ConstraintRef.Flat reference) →
      ∃ responses, Responses.ofText text = .ok responses) := by
  obtain ⟨names_nodup, -⟩ := Document.namesDistinct_object_iff.mp distinct
  simp only [Schema.Document.accepts_iff]
  refine ⟨?_, ?_, fun describes flat => ?_, fun describes flat => ?_, fun describes flat => ?_,
    fun describes flat => ?_⟩
  · exact (exists_congr (Violation.read_means.readAll_iff text_read)).trans
      (Violation.exists_spelledBy_iff names_nodup)
  · exact (exists_congr (Insight.read_means.readAll_iff text_read)).trans
      (Insight.exists_spelledBy_iff names_nodup)
  · obtain ⟨reference, spelled⟩ := ConstraintRef.exists_spelledBy distinct describes flat
    exact ⟨reference, (ConstraintRef.read_means.readAll_iff text_read reference).mpr spelled⟩
  · obtain ⟨result, spelled⟩ := EvalResult.exists_spelledBy Schema.evalResult_defines_constraint
      distinct describes flat
    exact ⟨result, (EvalResult.read_means.readAll_iff text_read result).mpr spelled⟩
  · obtain ⟨response, spelled⟩ := Response.exists_spelledBy Schema.response_defines_constraint
      Schema.response_defines_evalResult distinct describes flat
    exact ⟨response, (Response.read_means.readAll_iff text_read response).mpr spelled⟩
  · obtain ⟨responses, spelled⟩ := Responses.exists_spelledBy Schema.responses_defines_constraint
      Schema.responses_defines_evalResult Schema.responses_defines_response distinct describes flat
    exact ⟨responses, (Responses.read_means.readAll_iff text_read responses).mpr spelled⟩

/-- A result whose metadata is missing and whose constraint is flat, beside another member that is
not; it is no violation. -/
theorem readers_accept_result_with_other_member :
    let document : Document := .object [("other", .object [("metadata", .scalar .null)]),
      ("constraint", .object [("name", .string "n"), ("kind", .string "K"),
        ("apiVersion", .string "")]), ("msg", .string "m")]
    (∃ result, EvalResult.ofText document.text = .ok result) ∧
      ¬ ∃ violation, Violation.ofText document.text = .ok violation := by
  intro document
  have distinct : document.NamesDistinct := by
    simp [document, Document.string, Document.NamesDistinct, Document.MembersNamesDistinct]
  obtain ⟨violation_iff, _, _, result_read, _, _⟩ := readers_accept_what_schemas_accept
    document.text _ (Document.ofText_text (by decide)) distinct
  constructor
  · refine result_read (Schema.Document.accepts_iff.mpr ?_) (List.forall_mem_singleton.mpr rfl)
    refine (EvalResult.describes_iff Schema.evalResult_defines_constraint (by decide)).mpr
      ⟨⟨_, rfl⟩, .inl rfl, _, rfl, ?_⟩
    exact (ConstraintRef.describes_iff (by decide)).mpr ⟨⟨_, rfl⟩, ⟨_, rfl⟩, _, rfl⟩
  · rw [violation_iff, Schema.Document.accepts_iff]
    intro describes
    obtain ⟨_, ⟨_, resource_under⟩, _⟩ := (Violation.describes_iff (by decide)).mp describes
    cases resource_under

end PolicyReview
