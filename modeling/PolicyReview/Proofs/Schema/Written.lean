import PolicyReview.Proofs.Record.RoundTrip
import PolicyReview.Proofs.Schema.Validity

/-!
# What is written is valid

Every record is written as a document that its schema accepts.  A record that stands inside another
is valid wherever the schema of the outer record defines it.
-/

namespace PolicyReview

open Json (valuesUnder)
open Schema (Kind)

/-- A value is written, and the schema accepts what is written. -/
def Schema.Document.Covers {α : Type} (schema : Schema.Document)
    (document : α → Except NonFinite Json.Document) (value : α) : Prop :=
  ∃ written, document value = .ok written ∧ schema.Accepts written

theorem Schema.Document.covers_of_exists {α : Type} {schema : Schema.Document}
    {document : α → Except NonFinite Json.Document} {value : α}
    (described : ∃ written, document value = .ok written ∧
      schema.root.Describes schema.document written) : schema.Covers document value := by
  obtain ⟨written, written_eq, describes⟩ := described
  exact ⟨written, written_eq, accepts_iff.mpr describes⟩

/-- A table of finite values is written as an object. -/
theorem Dynamic.exists_members_of_allFinite {entries : DynamicMap}
    (finite : (map entries).AllFinite) :
    ∃ members, mapDocument entries = .ok (.object members) := by
  obtain ⟨document, written⟩ := exists_document_iff.mpr finite
  obtain ⟨members, _, document_eq⟩ := exists_of_bind_eq_ok written
  cases document_eq
  exact ⟨members, written⟩

theorem Violation.describes_document (root : Json.Document) (violation : Violation) :
    Schema.violationRecord.Describes root violation.document := by
  refine ⟨_, rfl, ?_⟩
  simp [Schema.violationRecord, valuesUnder, Kind.valid_string_iff, Kind.valid_anything]

theorem Insight.exists_describes_document (root : Json.Document) {insight : Insight}
    (finite : ∀ part ∈ insight.parts, part.AllFinite) :
    ∃ document, insight.document = .ok document ∧ Schema.insightRecord.Describes root document := by
  obtain ⟨content, content_eq⟩ :=
    Dynamic.exists_members_of_allFinite (finite _ List.mem_cons_self)
  refine ⟨_, by rw [Insight.document, content_eq]; rfl, _, rfl, ?_⟩
  simp [Schema.insightRecord, valuesUnder, Kind.valid_string_iff, Kind.valid_list_iff,
    Kind.valid_table_iff, Kind.valid_anything]

theorem ConstraintRef.describes_document (root : Json.Document) (reference : ConstraintRef) :
    Schema.constraintRecord.Describes root reference.document := by
  refine ⟨_, rfl, ?_⟩
  simp [Schema.constraintRecord, valuesUnder, Kind.valid_string_iff]

section Nested

variable {schema : Schema.Document}

theorem EvalResult.exists_describes_document (defines : schema.Defines Schema.constraintRecord)
    {result : EvalResult} (finite : ∀ part ∈ result.parts, part.AllFinite) :
    ∃ document, result.document = .ok document ∧
      Schema.evalResultRecord.Describes schema.document document := by
  obtain ⟨metadata, metadata_eq⟩ :=
    Dynamic.exists_members_of_allFinite (finite _ List.mem_cons_self)
  have constraint_valid : Schema.Valid schema.document (Kind.record "ConstraintRef").document
      result.constraint.document :=
    defines.valid_record_iff.mpr (result.constraint.describes_document schema.document)
  refine ⟨_, by rw [EvalResult.document, metadata_eq]; rfl, _, rfl, ?_⟩
  simp [Schema.evalResultRecord, valuesUnder, Kind.valid_string_iff, Kind.valid_table_iff,
    Kind.valid_anything, constraint_valid]

theorem Response.exists_describes_document (defines : schema.Defines Schema.constraintRecord)
    (defines_result : schema.Defines Schema.evalResultRecord) {response : Response}
    (finite : ∀ part ∈ response.parts, part.AllFinite) :
    ∃ document, response.document = .ok document ∧
      Schema.responseRecord.Describes schema.document document := by
  obtain ⟨results, results_eq, described⟩ := exists_mapM_eq_ok_forall fun result result_mem =>
    EvalResult.exists_describes_document defines fun part part_mem =>
      finite part (List.mem_flatMap.mpr ⟨result, result_mem, part_mem⟩)
  have results_valid : ∀ result ∈ results,
      Schema.Valid schema.document (Kind.record "EvalResult").document result :=
    fun result result_mem => defines_result.valid_record_iff.mpr (described result result_mem)
  refine ⟨_, by rw [Response.document, results_eq]; rfl, _, rfl, ?_⟩
  simpa [Schema.responseRecord, valuesUnder, Kind.valid_string_iff, Kind.valid_list_iff] using
    results_valid

theorem Responses.exists_describes_document (defines : schema.Defines Schema.constraintRecord)
    (defines_result : schema.Defines Schema.evalResultRecord)
    (defines_response : schema.Defines Schema.responseRecord) {responses : Responses}
    (finite : ∀ part ∈ responses.parts, part.AllFinite) :
    ∃ document, responses.document = .ok document ∧
      Schema.responsesRecord.Describes schema.document document := by
  obtain ⟨members, members_eq, members_valid⟩ : ∃ members,
      responses.byTarget.mapM entryDocument = .ok members ∧ ∀ member ∈ members,
        Schema.Valid schema.document (Kind.record "Response").document member.2 := by
    refine exists_mapM_eq_ok_forall fun entry entry_mem => ?_
    obtain ⟨document, document_eq, described⟩ :=
      Response.exists_describes_document defines defines_result fun part part_mem =>
        finite part (List.mem_flatMap.mpr ⟨entry, entry_mem, part_mem⟩)
    exact ⟨(entry.1, document), by rw [entryDocument, document_eq]; rfl,
      defines_response.valid_record_iff.mpr described⟩
  refine ⟨_, by rw [Responses.document, members_eq]; rfl, _, rfl, ?_⟩
  simpa [Schema.responsesRecord, valuesUnder, Kind.valid_table_iff] using members_valid

end Nested

/-- Every record of finite values is written as its schema asks. -/
theorem records_written_as_accepted :
    (∀ violation, Schema.violation.Accepts (Violation.document violation)) ∧
    (∀ insight : Insight, (∀ part ∈ insight.parts, part.AllFinite) →
      Schema.insight.Covers Insight.document insight) ∧
    (∀ reference, Schema.constraint.Accepts (ConstraintRef.document reference)) ∧
    (∀ result : EvalResult, (∀ part ∈ result.parts, part.AllFinite) →
      Schema.evalResult.Covers EvalResult.document result) ∧
    (∀ response : Response, (∀ part ∈ response.parts, part.AllFinite) →
      Schema.response.Covers Response.document response) ∧
    ∀ responses : Responses, (∀ part ∈ responses.parts, part.AllFinite) →
      Schema.responses.Covers Responses.document responses := by
  refine ⟨fun violation => ?_, fun insight finite => ?_, fun reference => ?_,
    fun result finite => ?_, fun response finite => ?_, fun responses finite => ?_⟩
  · exact Schema.Document.accepts_iff.mpr (violation.describes_document _)
  · exact Schema.Document.covers_of_exists (Insight.exists_describes_document _ finite)
  · exact Schema.Document.accepts_iff.mpr (reference.describes_document _)
  · exact Schema.Document.covers_of_exists
      (EvalResult.exists_describes_document Schema.evalResult_defines_constraint finite)
  · exact Schema.Document.covers_of_exists
      (Response.exists_describes_document Schema.response_defines_constraint
        Schema.response_defines_evalResult finite)
  · exact Schema.Document.covers_of_exists
      (Responses.exists_describes_document Schema.responses_defines_constraint
        Schema.responses_defines_evalResult Schema.responses_defines_response finite)

/-- Responses under another key than their target, whose metadata holds a list, a negative zero and
an empty table. -/
theorem responses_written_as_accepted_under_other_key :
    Schema.responses.Covers Responses.document ⟨[("a", ⟨"b", [⟨"m", [("k", .list [.null,
      .float (Binary64.zero true), .map []])], ⟨"", "K", "n"⟩⟩]⟩), ("c", ⟨"", []⟩)]⟩ := by
  obtain ⟨_, _, _, _, _, responses_covered⟩ := records_written_as_accepted
  refine responses_covered _ ?_
  simp only [Responses.parts, Response.parts, EvalResult.parts, List.flatMap_cons,
    List.flatMap_nil, List.append_nil, List.forall_mem_singleton]
  decide

end PolicyReview
