import PolicyReview.Proofs.Dynamic.Document
import PolicyReview.Proofs.Record.Finding
import PolicyReview.Proofs.Record.Insight

/-!
# Records read back

The document of a record spells the record, so every record is read back from its text as long as
text keeps its dynamic parts and the brackets do not nest too deep.
-/

namespace PolicyReview

open Json (Document EntriesSpelled Given valuesUnder)

/-- The value is written, and its text is read as the value unless its brackets nest too deep. -/
def RoundTrips {α : Type} (document : α → Except NonFinite Document)
    (ofText : String → Except Json.Error α) (value : α) : Prop :=
  ∃ written, document value = .ok written ∧
    (written.depth ≤ 127 → ofText written.text = .ok value)

namespace Dynamic

/-- The document of a sorted table is an object, whose members spell the normal form. -/
theorem exists_members_of_mapDocument {entries : DynamicMap} {document : Document}
    (ordered : (map entries).Ordered) (written : mapDocument entries = .ok document) :
    ∃ members, document = .object members ∧
      Entries.ofMembers (assembly.ofMembers members) = entriesNormal entries := by
  have built := ofDocument_of_document ordered written
  obtain ⟨members, _, document_eq⟩ := exists_of_bind_eq_ok written
  cases document_eq
  exact ⟨members, rfl, Dynamic.map.inj built⟩

/-- The document of a table that text keeps spells the table. -/
theorem exists_members_of_kept {entries : DynamicMap} (kept : (map entries).Kept) :
    ∃ members, mapDocument entries = .ok (.object members) ∧
      Entries.ofMembers (assembly.ofMembers members) = entries := by
  obtain ⟨document, written⟩ := exists_document_iff.mpr kept.finite
  obtain ⟨members, rfl, built⟩ := exists_members_of_mapDocument kept.ordered written
  have normal_eq : entriesNormal entries = entries := Dynamic.map.inj (normal_eq_self kept.large)
  exact ⟨members, written, built.trans normal_eq⟩

end Dynamic

namespace ConstraintRef

/-- The document of a reference is a table of three strings. -/
theorem ofDocument_document (reference : ConstraintRef) :
    Dynamic.assembly.ofDocument reference.document =
      .map [("apiVersion", .string reference.apiVersion), ("kind", .string reference.kind),
        ("name", .string reference.name)] := by
  have ordered : Entries.Ordered [("apiVersion", Dynamic.string reference.apiVersion),
      ("kind", .string reference.kind), ("name", .string reference.name)] := by
    have kind_after : "apiVersion" < "kind" := by decide
    have name_last : "apiVersion" < "name" ∧ "kind" < "name" := by decide
    refine List.pairwise_cons.mpr ⟨?_, List.pairwise_pair.mpr name_last.2⟩
    exact List.forall_mem_cons.mpr ⟨kind_after, List.forall_mem_singleton.mpr name_last.1⟩
  exact congrArg Dynamic.map (Entries.ofMembers_eq_self ordered)

theorem spelledBy_document (reference : ConstraintRef) :
    SpelledBy reference.document reference := by
  rw [SpelledBy, ofDocument_document]
  simp [ofDynamic, Dynamic.get?, Dynamic.asMap?, Entries.find?, Dynamic.getPathString,
    Dynamic.getPath?, Dynamic.asString?, named, textAt, bind, Except.bind]

theorem roundTrips (reference : ConstraintRef) :
    RoundTrips (fun reference => .ok (document reference)) ofText reference :=
  ⟨_, rfl, fun depth_le => read_means.readAll_text depth_le reference.spelledBy_document⟩

end ConstraintRef

namespace EvalResult

/-- The dynamic parts of a result. -/
def parts (result : EvalResult) : List Dynamic :=
  [.map result.metadata]

theorem exists_document_spelling {result : EvalResult} (kept : ∀ part ∈ result.parts, part.Kept) :
    ∃ document, result.document = .ok document ∧ SpelledBy document result := by
  obtain ⟨metadata, written, built⟩ :=
    Dynamic.exists_members_of_kept (kept _ List.mem_cons_self)
  refine ⟨.object [("msg", .string result.msg), ("metadata", .object metadata),
    ("constraint", result.constraint.document)], ?_, _, rfl, ?_, ⟨some result.metadata, ?_, rfl⟩,
    _, ?_, result.constraint.spelledBy_document⟩
  · rw [document, written]
    rfl
  · simp [valuesUnder]
  · have spelled := MetadataSpelledBy.object metadata
    rw [built] at spelled
    simpa [valuesUnder] using spelled
  · simp [valuesUnder]

theorem roundTrips {result : EvalResult} (kept : ∀ part ∈ result.parts, part.Kept) :
    RoundTrips document ofText result := by
  obtain ⟨document, written, spelled⟩ := exists_document_spelling kept
  exact ⟨document, written, fun depth_le => read_means.readAll_text depth_le spelled⟩

end EvalResult

namespace Response

/-- The dynamic parts of a response. -/
def parts (response : Response) : List Dynamic :=
  response.results.flatMap EvalResult.parts

theorem exists_document_spelling {response : Response}
    (kept : ∀ part ∈ response.parts, part.Kept) :
    ∃ document, response.document = .ok document ∧ SpelledBy document response := by
  obtain ⟨results, written, spelled⟩ := exists_mapM_eq_ok fun result result_mem =>
    EvalResult.exists_document_spelling fun part part_mem =>
      kept part (List.mem_flatMap.mpr ⟨result, result_mem, part_mem⟩)
  refine ⟨.object [("target", .string response.target), ("results", .list results)], ?_, _, rfl, ?_,
    some response.results, ?_, rfl⟩
  · rw [document, written]
    rfl
  · simp [valuesUnder]
  · have results_spelled : ResultsSpelledBy (.list results) response.results := ⟨_, rfl, spelled⟩
    simpa [valuesUnder] using results_spelled

theorem roundTrips {response : Response} (kept : ∀ part ∈ response.parts, part.Kept) :
    RoundTrips document ofText response := by
  obtain ⟨document, written, spelled⟩ := exists_document_spelling kept
  exact ⟨document, written, fun depth_le => read_means.readAll_text depth_le spelled⟩

end Response

namespace Responses

/-- The dynamic parts of responses. -/
def parts (responses : Responses) : List Dynamic :=
  responses.byTarget.flatMap fun entry => entry.2.parts

theorem exists_document_spelling {responses : Responses} (ordered : responses.byTarget.Ordered)
    (kept : ∀ part ∈ responses.parts, part.Kept) :
    ∃ document, responses.document = .ok document ∧ SpelledBy document responses := by
  obtain ⟨members, written, spelled⟩ : ∃ members,
      responses.byTarget.mapM entryDocument = .ok members ∧
        EntriesSpelled Response.SpelledBy members responses.byTarget := by
    refine exists_mapM_eq_ok fun entry entry_mem => ?_
    obtain ⟨document, document_eq, document_spelled⟩ :=
      Response.exists_document_spelling fun part part_mem =>
        kept part (List.mem_flatMap.mpr ⟨entry, entry_mem, part_mem⟩)
    exact ⟨(entry.1, document), by rw [entryDocument, document_eq]; rfl, rfl, document_spelled⟩
  refine ⟨.object [("byTarget", .object members)], ?_, _, rfl, some responses.byTarget, ?_, rfl⟩
  · rw [document, written]
    rfl
  · have table_spelled : TableSpelledBy (.object members) responses.byTarget :=
      ⟨_, _, rfl, spelled, (Entries.ofMembers_eq_self ordered).symm⟩
    simpa [valuesUnder] using table_spelled

theorem roundTrips {responses : Responses} (ordered : responses.byTarget.Ordered)
    (kept : ∀ part ∈ responses.parts, part.Kept) : RoundTrips document ofText responses := by
  obtain ⟨document, written, spelled⟩ := exists_document_spelling ordered kept
  exact ⟨document, written, fun depth_le => read_means.readAll_text depth_le spelled⟩

end Responses

namespace Violation

theorem depth_document (violation : Violation) :
    violation.document.depth = violation.metadata.depth + 1 := by
  simp [document, Document.depth, Document.membersDepth, Document.string,
    Structured.depth_document]

theorem roundTrips {violation : Violation} (ordered : violation.metadata.Ordered) :
    RoundTrips (fun violation => .ok (document violation)) ofText violation := by
  refine ⟨_, rfl, fun depth_le => (ofText_text_eq_ok_iff ordered).mpr ?_⟩
  rw [depth_document] at depth_le
  exact Nat.le_of_succ_le_succ depth_le

end Violation

namespace Insight

/-- The dynamic parts of an insight. -/
def parts (insight : Insight) : List Dynamic :=
  [.map insight.content]

/-- The insight with its content in normal form. -/
def normal (insight : Insight) : Insight :=
  { insight with content := Dynamic.entriesNormal insight.content }

/-- The document of an insight spells its normal form. -/
theorem spelledBy_of_document {insight : Insight} {document : Document}
    (ordered : (Dynamic.map insight.content).Ordered)
    (written : insight.document = .ok document) : SpelledBy document insight.normal := by
  obtain ⟨content, content_eq, document_eq⟩ := exists_of_bind_eq_ok written
  obtain ⟨members, rfl, built⟩ := Dynamic.exists_members_of_mapDocument ordered content_eq
  cases document_eq
  exact ⟨_, members, rfl, by simp [valuesUnder, normal], by simp [valuesUnder, normal],
    by simp [valuesUnder, normal], by simp [valuesUnder], built.symm,
    by simp [valuesUnder, normal]⟩

theorem roundTrips {insight : Insight} (kept : ∀ part ∈ insight.parts, part.Kept) :
    RoundTrips document ofText insight := by
  have content_kept := kept _ List.mem_cons_self
  obtain ⟨members, content_eq, _⟩ := Dynamic.exists_members_of_kept content_kept
  obtain ⟨document, written⟩ : ∃ document, insight.document = .ok document := by
    rw [document, content_eq]
    exact ⟨_, rfl⟩
  have normal_eq : insight.normal = insight := by
    rw [normal, Dynamic.map.inj (Dynamic.normal_eq_self content_kept.large)]
  have spelled := spelledBy_of_document content_kept.ordered written
  rw [normal_eq] at spelled
  exact ⟨document, written, fun depth_le => read_means.readAll_text depth_le spelled⟩

end Insight

/-- Every record is read back from its text. -/
theorem records_read_back :
    (∀ reference, RoundTrips (fun reference => .ok (ConstraintRef.document reference))
      ConstraintRef.ofText reference) ∧
    (∀ result : EvalResult, (∀ part ∈ result.parts, part.Kept) →
      RoundTrips EvalResult.document EvalResult.ofText result) ∧
    (∀ response : Response, (∀ part ∈ response.parts, part.Kept) →
      RoundTrips Response.document Response.ofText response) ∧
    (∀ responses : Responses, responses.byTarget.Ordered → (∀ part ∈ responses.parts, part.Kept) →
      RoundTrips Responses.document Responses.ofText responses) ∧
    (∀ violation : Violation, violation.metadata.Ordered →
      RoundTrips (fun violation => .ok (Violation.document violation)) Violation.ofText
        violation) ∧
    (∀ insight : Insight, (∀ part ∈ insight.parts, part.Kept) →
      RoundTrips Insight.document Insight.ofText insight) :=
  ⟨ConstraintRef.roundTrips, fun _ => EvalResult.roundTrips, fun _ => Response.roundTrips,
    fun _ => Responses.roundTrips, fun _ => Violation.roundTrips, fun _ => Insight.roundTrips⟩

/-- Responses whose key is not their target, with the least unsigned integer that stays unsigned, a
negative zero, and a quote and a line break in names. -/
theorem records_read_back_of_other_target :
    ∃ written, Responses.document ⟨[("a", ⟨"b\n", [⟨"\"", [("k\"", .list [.uint 0x8000000000000000,
        .float (Binary64.zero true), .map []])], ⟨"", "K", "n"⟩⟩]⟩), ("c", ⟨"", []⟩)]⟩ =
          .ok written ∧
      Responses.ofText written.text = .ok ⟨[("a", ⟨"b\n", [⟨"\"", [("k\"", .list
        [.uint 0x8000000000000000, .float (Binary64.zero true), .map []])], ⟨"", "K", "n"⟩⟩]⟩),
          ("c", ⟨"", []⟩)]⟩ := by
  obtain ⟨_, _, _, responses_round_trip, _, _⟩ := records_read_back
  obtain ⟨written, written_eq, read⟩ := responses_round_trip
    ⟨[("a", ⟨"b\n", [⟨"\"", [("k\"", .list [.uint 0x8000000000000000,
      .float (Binary64.zero true), .map []])], ⟨"", "K", "n"⟩⟩]⟩), ("c", ⟨"", []⟩)]⟩
    (List.pairwise_pair.mpr (by decide))
    (by
      simp only [Responses.parts, Response.parts, EvalResult.parts, List.flatMap_cons,
        List.flatMap_nil, List.append_nil, List.forall_mem_singleton]
      exact ⟨⟨List.pairwise_singleton _ _, ⟨trivial, trivial, ⟨List.Pairwise.nil, trivial⟩,
        trivial⟩, trivial⟩, by decide, List.forall_mem_singleton.mpr (by decide)⟩)
  refine ⟨written, written_eq, read ?_⟩
  cases written_eq
  decide

end PolicyReview
