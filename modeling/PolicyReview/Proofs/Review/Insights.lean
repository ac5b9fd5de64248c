import PolicyReview.Proofs.Json.Lines
import PolicyReview.Proofs.Record.InsightList
import PolicyReview.Proofs.Review.Agreement
import PolicyReview.Proofs.Review.Decision
import PolicyReview.Review.Rendering

/-!
# Rendered insights

Insights are rendered unless a word in their contents is not finite, and the first such word is the
error.  The rendered text is the text without blanks, laid out over several lines.  A review that
succeeds has checked the metadata of its violations but not the resource, so its insights cannot be
rendered when they show a resource with a word that is not finite.
-/

namespace PolicyReview

open Json (Document withoutBlanks)

variable {insights : List Insight}

/-- The error names the first word that is not finite, in order of insights, sorted keys and list
positions. -/
theorem insightsText_eq_error_iff {error : NonFinite} :
    insightsText insights = .error error ↔
      (insights.flatMap Insight.words).find? (fun word => !word.isFinite) = some error.word := by
  rw [← mapM_document_eq_error_iff]
  exact bind_ok_eq_error_iff.trans bind_ok_eq_error_iff

theorem exists_insightsText_eq_error_iff :
    (∃ error, insightsText insights = .error error) ↔
      ∃ insight ∈ insights, ¬ (Dynamic.map insight.content).AllFinite := by
  simp only [insightsText_eq_error_iff]
  constructor
  · rintro ⟨error, first⟩
    have infinite : error.word.isFinite = false := by simpa using List.find?_some first
    obtain ⟨insight, insight_mem, word_mem⟩ :=
      List.mem_flatMap.mp (List.mem_of_find?_eq_some first)
    refine ⟨insight, insight_mem, fun allFinite => ?_⟩
    rw [allFinite error.word word_mem] at infinite
    cases infinite
  · rintro ⟨insight, insight_mem, notFinite⟩
    cases first : (insights.flatMap Insight.words).find? (fun word => !word.isFinite) with
    | some word => exact ⟨⟨word⟩, rfl⟩
    | none =>
      refine absurd (fun word word_mem => ?_) notFinite
      have finite := List.find?_eq_none.mp first word
        (List.mem_flatMap.mpr ⟨insight, insight_mem, word_mem⟩)
      simpa using finite

theorem exists_of_insightsText_eq_ok {text : String} (rendered : insightsText insights = .ok text) :
    ∃ documents, insights.mapM Insight.document = .ok documents ∧
      insightsDocument insights = .ok (.list documents) ∧
      text = (Document.list documents).prettyText ++ "\n" := by
  obtain ⟨document, document_eq, text_eq⟩ := exists_of_bind_eq_ok rendered
  cases text_eq
  obtain ⟨documents, written, list_eq⟩ := exists_of_bind_eq_ok document_eq
  cases list_eq
  exact ⟨documents, written, document_eq, rfl⟩

/-- The text of a list of insights ends with one line break, is the text without blanks once the
blanks outside of string literals are deleted, and is read as the normal forms of the insights
unless their contents are too deep. -/
structure RendersInsights (insights : List Insight) (text : String) : Prop where
  lineBreak : ∃ body, text = body ++ "\n" ∧ body.toList.getLast? ≠ some '\n'
  compact : ∃ document, insightsDocument insights = .ok document ∧
    withoutBlanks .outside text.toList = document.text.toList
  read : Insight.listOfText text = .ok (insights.map Insight.normal) ↔
    ∀ insight ∈ insights, (Dynamic.map insight.content).depth ≤ 125

theorem rendersInsights_of_insightsText_eq_ok {text : String}
    (ordered : ∀ insight ∈ insights, (Dynamic.map insight.content).Ordered)
    (rendered : insightsText insights = .ok text) : RendersInsights insights text := by
  obtain ⟨documents, written, document_eq, rfl⟩ := exists_of_insightsText_eq_ok rendered
  exact {
    lineBreak := ⟨_, rfl, by simp [Document.getLast?_prettyText]⟩
    compact := ⟨_, document_eq, Document.withoutBlanks_prettyText _⟩
    read := listOfText_eq_ok_iff ordered written Document.ofText_prettyText }

namespace ReviewResult

variable {config : InsightConfig} {resource metadata : DynamicMap}

theorem allFinite_insightContent_iff (keys_ne : config.resourceKey ≠ config.metadataKey) :
    (Dynamic.map (insightContent config resource metadata)).AllFinite ↔
      (Dynamic.map resource).AllFinite ∧ (Dynamic.map metadata).AllFinite := by
  rw [Dynamic.allFinite_map_iff, insightContent, Entries.insert, Entries.insert]
  split
  · simp [and_comm]
  · rw [if_neg keys_ne.symm, Entries.insert]
    simp

theorem allFinite_insightContent_of_keys_eq (keys_eq : config.resourceKey = config.metadataKey) :
    (Dynamic.map (insightContent config resource metadata)).AllFinite ↔
      (Dynamic.map metadata).AllFinite := by
  rw [insightContent_of_keys_eq keys_eq, Dynamic.allFinite_map_iff, List.forall_mem_singleton]

end ReviewResult

/-- The insights of a review cannot be rendered exactly when there are some and they show a resource
with a word that is not finite. -/
theorem Reviewer.exists_insightsText_eq_error_iff {reviewer : Reviewer} {request : ReviewRequest}
    {output : ReviewOutput} (reviewed : reviewer.review request = .ok output) :
    (∃ error, insightsText output.insights = .error error) ↔
      reviewer.config.insights.resourceKey ≠ reviewer.config.insights.metadataKey ∧
        output.violations ≠ [] ∧ ¬ (Dynamic.map request.resource).AllFinite := by
  rw [PolicyReview.exists_insightsText_eq_error_iff]
  rw [review_eq_iff_decides] at reviewed
  cases reviewed with
  | projected response name violations present field encodable projects =>
    have violations_iff : violations ≠ [] ↔ ∃ result, result ∈ response.results := by
      rw [← List.length_pos_iff, ← projects.length_eq, List.length_pos_iff_exists_mem]
    simp only [List.mem_map, exists_exists_and_eq_and, violations_iff]
    by_cases keys_eq :
        reviewer.config.insights.resourceKey = reviewer.config.insights.metadataKey
    · simp only [ReviewResult.allFinite_insightContent_of_keys_eq keys_eq]
      refine iff_of_false ?_ fun holds => holds.1 keys_eq
      rintro ⟨result, result_mem, notFinite⟩
      exact notFinite (encodable result result_mem).1
    · simp only [ReviewResult.allFinite_insightContent_iff keys_eq]
      constructor
      · rintro ⟨result, result_mem, notBoth⟩
        refine ⟨keys_eq, ⟨result, result_mem⟩, fun resource_finite => notBoth ?_⟩
        exact ⟨resource_finite, (encodable result result_mem).1⟩
      · rintro ⟨_, ⟨result, result_mem⟩, notFinite⟩
        exact ⟨result, result_mem, fun both => notFinite both.1⟩

/-- A review of a named resource succeeds when all metadata can be encoded. -/
theorem Reviewer.exists_review_of_encodable (reviewer : Reviewer) (request : ReviewRequest)
    {response : Response} {name : String}
    (present : request.responses.byTarget.find? request.target = some response)
    (field : request.resource.find? reviewer.config.nameField = some (.string name))
    (encodable : ∀ result ∈ response.results, Encodable result.metadata) :
    ∃ output, reviewer.review request = .ok output ∧
      output.violations.length = response.results.length := by
  obtain ⟨violations, projects⟩ := exists_forall₂_projects name encodable
  exact ⟨_, review_eq_iff_decides.mpr (.projected response name violations present field encodable
    projects), projects.length_eq.symm⟩

/-- Rendering insights fails exactly at the first word that is not finite in their contents, and
otherwise lays out the text without blanks.  The insights of a review fail to be rendered exactly
when the resource has such a word, there is a violation, and the keys keep the resource apart from
the metadata. -/
theorem insightsText_decided (insights : List Insight)
    (ordered : ∀ insight ∈ insights, (Dynamic.map insight.content).Ordered) :
    ((∃ error, insightsText insights = .error error) ↔
      ∃ insight ∈ insights, ¬ (Dynamic.map insight.content).AllFinite) ∧
    (∀ error, insightsText insights = .error error →
      (insights.flatMap Insight.words).find? (fun word => !word.isFinite) = some error.word ∧
      insightsFailure error =
        ["serialize insights", "unsupported value: " ++ error.word.plainText]) ∧
    (∀ text, insightsText insights = .ok text → RendersInsights insights text) ∧
    ∀ (reviewer : Reviewer) (request : ReviewRequest) (output : ReviewOutput),
      reviewer.review request = .ok output →
      ((∃ error, insightsText output.insights = .error error) ↔
        reviewer.config.insights.resourceKey ≠ reviewer.config.insights.metadataKey ∧
          output.violations ≠ [] ∧ ¬ (Dynamic.map request.resource).AllFinite) :=
  ⟨exists_insightsText_eq_error_iff,
    fun _ failed => ⟨insightsText_eq_error_iff.mp failed, rfl⟩,
    fun _ rendered => rendersInsights_of_insightsText_eq_ok ordered rendered,
    fun _ _ _ reviewed => Reviewer.exists_insightsText_eq_error_iff reviewed⟩

/-- An insight with a small unsigned integer, a blank and a quote in its content is read back with a
signed one, and a review under the default keys whose resource has a word that is not finite. -/
theorem insightsText_decided_of_one_insight :
    (∃ text body,
      insightsText [⟨"open", ["bucket"], "policy",
        [("size", .list [.uint 5, .float (.zero true), .string " \"", .map []])], "SECURITY"⟩] =
          .ok text ∧ text = body ++ "\n" ∧
      Insight.listOfText text = .ok [⟨"open", ["bucket"], "policy",
        [("size", .list [.int 5, .float (.zero true), .string " \"", .map []])], "SECURITY"⟩]) ∧
    ∃ output error,
      Reviewer.review {} ⟨"t", [("name", .string "bucket"),
        ("size", .float (.ofBits 0x7FF8000000000000))], none,
          ⟨[("t", ⟨"t", [⟨"open", [], .ofKind "Kind" "policy"⟩]⟩)]⟩⟩ = .ok output ∧
      insightsText output.insights = .error error := by
  obtain ⟨fails_iff, _, succeeds, reviews⟩ := insightsText_decided
    [⟨"open", ["bucket"], "policy",
      [("size", .list [.uint 5, .float (.zero true), .string " \"", .map []])], "SECURITY"⟩]
    (List.forall_mem_singleton.mpr
      ⟨List.pairwise_singleton _ _, ⟨trivial, trivial, trivial, ⟨List.Pairwise.nil, trivial⟩,
        trivial⟩, trivial⟩)
  constructor
  · cases rendered : insightsText [⟨"open", ["bucket"], "policy",
        [("size", .list [.uint 5, .float (.zero true), .string " \"", .map []])], "SECURITY"⟩] with
    | ok text =>
      obtain ⟨⟨body, text_eq, _⟩, _, read⟩ := succeeds text rendered
      exact ⟨text, body, rfl, text_eq, read.mpr (by decide)⟩
    | error error => exact absurd (fails_iff.mp ⟨error, rendered⟩) (by decide)
  · obtain ⟨output, reviewed, length_eq⟩ := Reviewer.exists_review_of_encodable {}
      ⟨"t", [("name", .string "bucket"), ("size", .float (.ofBits 0x7FF8000000000000))], none,
        ⟨[("t", ⟨"t", [⟨"open", [], .ofKind "Kind" "policy"⟩]⟩)]⟩⟩ rfl rfl (by decide)
    obtain ⟨error, failed⟩ := (reviews {} _ output reviewed).mpr
      ⟨by decide, List.ne_nil_of_length_eq_add_one length_eq, by decide⟩
    exact ⟨output, error, reviewed, failed⟩

/-- Under equal keys the insights of a resource with a word that is not finite are rendered all the
same, for the metadata has replaced the resource. -/
theorem insightsText_of_equal_keys :
    ∃ output text,
      Reviewer.review ⟨⟨"name", ⟨"SECURITY", "k", "k"⟩⟩⟩
        ⟨"t", [("name", .string "bucket"), ("size", .float (.ofBits 0x7FF8000000000000))], none,
          ⟨[("t", ⟨"t", [⟨"open", [], .ofKind "Kind" "policy"⟩]⟩)]⟩⟩ = .ok output ∧
      output.violations ≠ [] ∧
      ¬ (Dynamic.map [("name", .string "bucket"),
        ("size", .float (.ofBits 0x7FF8000000000000))]).AllFinite ∧
      insightsText output.insights = .ok text := by
  obtain ⟨output, reviewed, length_eq⟩ :=
    Reviewer.exists_review_of_encodable ⟨⟨"name", ⟨"SECURITY", "k", "k"⟩⟩⟩
      ⟨"t", [("name", .string "bucket"), ("size", .float (.ofBits 0x7FF8000000000000))], none,
        ⟨[("t", ⟨"t", [⟨"open", [], .ofKind "Kind" "policy"⟩]⟩)]⟩⟩ rfl rfl (by decide)
  have violated : output.violations ≠ [] := List.ne_nil_of_length_eq_add_one length_eq
  cases rendered : insightsText output.insights with
  | ok text => exact ⟨output, text, reviewed, violated, by decide, rendered⟩
  | error error =>
    have keys_ne := (Reviewer.exists_insightsText_eq_error_iff reviewed).mp ⟨error, rendered⟩
    exact absurd rfl keys_ne.1

end PolicyReview
