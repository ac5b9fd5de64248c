import PolicyReview.Proofs.Config.Effective
import PolicyReview.Proofs.Outcome
import PolicyReview.Proofs.Structured.Encoding
import PolicyReview.Review.Result

/-!
# Violations and insights agree

A result is projected to violations through the text of the metadata, which may fail, and to
insights directly.  Both have one entry for each constraint that is not satisfied, and entries at
the same place tell the same.  The content of an insight keeps the resource and the metadata apart
as long as their keys differ, which every resolved configuration sees to.
-/

namespace PolicyReview

/-- A violation and an insight tell the same about a constraint that is not satisfied. -/
structure Agree (result : ReviewResult) (config : InsightConfig) (unsatisfied : ConstraintViolation)
    (violation : Violation) (insight : Insight) : Prop where
  message : violation.message = insight.description
  description : insight.description = unsatisfied.message
  constraint : violation.constraint = insight.subtype
  subtype : insight.subtype = unsatisfied.constraint.name
  resource : violation.resource = result.name
  targets : insight.targetResources = [violation.resource]
  metadata : ∃ content, insight.content.find? config.metadataKey = some content ∧
    Structured.image? content = some violation.metadata

namespace ReviewResult

section Content

variable {config : InsightConfig} {resource metadata : DynamicMap}

theorem find?_insightContent (key : String) :
    (insightContent config resource metadata).find? key =
      if key = config.metadataKey then some (.map metadata)
      else if key = config.resourceKey then some (.map resource)
      else none := by
  rw [insightContent, Entries.find?_insert, Entries.find?_insert, Entries.find?]

theorem length_insightContent (keys_ne : config.resourceKey ≠ config.metadataKey) :
    (insightContent config resource metadata).length = 2 := by
  rw [insightContent, Entries.insert, Entries.insert]
  split
  · rfl
  · rw [if_neg keys_ne.symm]
    rfl

/-- Under equal keys the metadata replaces the resource. -/
theorem insightContent_of_keys_eq (keys_eq : config.resourceKey = config.metadataKey) :
    insightContent config resource metadata = [(config.metadataKey, .map metadata)] := by
  rw [insightContent, Entries.insert, Entries.insert, if_neg, if_pos keys_eq.symm]
  rw [keys_eq]
  exact String.lt_irrefl _

end Content

end ReviewResult

namespace ConstraintViolation

theorem exists_of_toViolation_eq_ok {unsatisfied : ConstraintViolation} {resource : String}
    {index : Nat} {violation : Violation}
    (projected : unsatisfied.toViolation resource index = .ok violation) :
    ∃ metadata, Structured.encodeMetadata unsatisfied.metadata = .ok metadata ∧
      violation = ⟨unsatisfied.constraint.name, resource, unsatisfied.message, metadata⟩ := by
  unfold toViolation at projected
  split at projected
  · rename_i metadata encoded
    cases projected
    exact ⟨metadata, encoded, rfl⟩
  · cases projected
  · cases projected

/-- Each constraint that is not satisfied has its violation at the same place. -/
theorem forall₂_of_toViolationsFrom {resource : String} {index : Nat}
    {unsatisfied : List ConstraintViolation} {violations : List Violation}
    (projected : toViolationsFrom resource index unsatisfied = .ok violations) :
    List.Forall₂ (fun unsatisfied violation =>
      ∃ index, unsatisfied.toViolation resource index = .ok violation) unsatisfied violations := by
  induction unsatisfied generalizing index violations with
  | nil =>
    cases projected
    exact .nil
  | cons first rest ih =>
    obtain ⟨violation, first_projected, projected⟩ := exists_of_bind_eq_ok projected
    obtain ⟨behind, rest_projected, projected⟩ := exists_of_bind_eq_ok projected
    cases projected
    exact .cons ⟨index, first_projected⟩ (ih rest_projected)

end ConstraintViolation

namespace ReviewResult

variable {result : ReviewResult} {config : InsightConfig} {violations : List Violation}

/-- The insight for a constraint that is not satisfied. -/
def insightOf (result : ReviewResult) (config : InsightConfig)
    (unsatisfied : ConstraintViolation) : Insight where
  description := unsatisfied.message
  targetResources := [result.name]
  subtype := unsatisfied.constraint.name
  content := insightContent config result.resource unsatisfied.metadata
  category := config.category

theorem toInsights_eq_map (result : ReviewResult) (config : InsightConfig) :
    result.toInsights config = result.violations.map (result.insightOf config) := rfl

theorem agree_insightOf {unsatisfied : ConstraintViolation} {violation : Violation} {index : Nat}
    (ordered : (Dynamic.map unsatisfied.metadata).Ordered)
    (projected : unsatisfied.toViolation result.name index = .ok violation) :
    Agree result config unsatisfied violation (result.insightOf config unsatisfied) := by
  obtain ⟨metadata, encoded, rfl⟩ := ConstraintViolation.exists_of_toViolation_eq_ok projected
  have image_eq := Structured.image?_of_encodeMetadata ordered encoded
  exact ⟨rfl, rfl, rfl, rfl, rfl, rfl, _,
    (find?_insightContent config.metadataKey).trans (if_pos rfl), image_eq⟩

/-- The content under the keys of a resolved configuration. -/
theorem content_insightOf_of_resolve {file : FileConfig} {overrides : Overrides}
    {effective : ReviewConfig} (resolved : file.resolve overrides = .ok effective)
    (result : ReviewResult) (unsatisfied : ConstraintViolation) :
    let insight := result.insightOf effective.insights unsatisfied
    insight.content.length = 2 ∧
      insight.content.find? effective.insights.metadataKey = some (.map unsatisfied.metadata) ∧
      insight.content.find? effective.insights.resourceKey = some (.map result.resource) := by
  have keys_ne := FileConfig.keys_ne_of_resolve resolved
  refine ⟨length_insightContent keys_ne, (find?_insightContent _).trans (if_pos rfl), ?_⟩
  exact (find?_insightContent _).trans ((if_neg keys_ne).trans (if_pos rfl))

/-- The two projections of a result have an entry for each constraint that is not satisfied, and
entries at the same place agree.  Under the keys of a resolved configuration the content of an
insight is the metadata and the resource, under equal keys it is the metadata alone, and what was
submitted for review is no part of it. -/
theorem projections_agree (result : ReviewResult) (config : InsightConfig)
    (violations : List Violation)
    (ordered : ∀ unsatisfied ∈ result.violations, (Dynamic.map unsatisfied.metadata).Ordered)
    (projected : result.toViolations = .ok violations) :
    violations.length = result.violations.length ∧
    (result.toInsights config).length = result.violations.length ∧
    (∀ (index : Nat) (unsatisfied : ConstraintViolation),
        result.violations[index]? = some unsatisfied →
      ∃ (violation : Violation) (insight : Insight), violations[index]? = some violation ∧
        (result.toInsights config)[index]? = some insight ∧
        Agree result config unsatisfied violation insight ∧
        (∀ (file : FileConfig) (overrides : Overrides) (effective : ReviewConfig),
          file.resolve overrides = .ok effective → config = effective.insights →
          insight.content.length = 2 ∧
            insight.content.find? config.metadataKey = some (.map unsatisfied.metadata) ∧
            insight.content.find? config.resourceKey = some (.map result.resource)) ∧
        (config.resourceKey = config.metadataKey →
          insight.content = [(config.metadataKey, .map unsatisfied.metadata)])) ∧
    ∀ reviewed, toInsights config { result with reviewed } = result.toInsights config := by
  -- Insights are a map of the constraints; only violations may fail, so their places are related.
  have each := ConstraintViolation.forall₂_of_toViolationsFrom projected
  refine ⟨each.length_eq.symm, List.length_map _, ?_, fun _ => rfl⟩
  intro index unsatisfied unsatisfied_at
  obtain ⟨index_lt, rfl⟩ := List.getElem?_eq_some_iff.mp unsatisfied_at
  have violation_at : index < violations.length := each.length_eq ▸ index_lt
  obtain ⟨place, unsatisfied_projected⟩ := each.get index_lt violation_at
  refine ⟨violations[index], _, List.getElem?_eq_getElem violation_at, ?_,
    agree_insightOf (ordered _ (List.getElem_mem index_lt)) unsatisfied_projected, ?_,
    insightContent_of_keys_eq⟩
  · rw [toInsights_eq_map, List.getElem?_map, unsatisfied_at]
    rfl
  · rintro file overrides effective resolved rfl
    exact content_insightOf_of_resolve resolved result _

/-- One result under the default keys, with an unsigned integer in its metadata. -/
theorem projections_agree_of_one_violation :
    ∃ (violations : List Violation) (violation : Violation) (insight : Insight),
      toViolations ⟨"bucket", [("name", .string "bucket")], [],
        [⟨"open", [("size", .uint 7)], .ofKind "Kind" "policy"⟩]⟩ = .ok violations ∧
      violations[0]? = some violation ∧ violation.message = insight.description ∧
      insight.content.length = 2 ∧
      insight.content.find? "metadata" = some (.map [("size", .uint 7)]) ∧
      insight.content.find? "resource" = some (.map [("name", .string "bucket")]) ∧
      violation.metadata = .object [("size", .number (.natural 7))] := by
  cases projected : toViolations ⟨"bucket", [("name", .string "bucket")], [],
      [⟨"open", [("size", .uint 7)], .ofKind "Kind" "policy"⟩]⟩ with
  | error error =>
    have succeeds : (toViolations ⟨"bucket", [("name", .string "bucket")], [],
        [⟨"open", [("size", .uint 7)], .ofKind "Kind" "policy"⟩]⟩).isOk = true := by
      decide +kernel
    rw [projected] at succeeds
    cases succeeds
  | ok violations =>
    have ordered : (Dynamic.map [("size", .uint 7)]).Ordered :=
      ⟨List.pairwise_singleton _ _, trivial, trivial⟩
    have seven : Structured.image? (.map [("size", .uint 7)]) =
        some (.object [("size", .number (.natural 7))]) := by
      rw [Structured.image?, Structured.entriesImage?, Structured.image?, Structured.ofInt?_toNat]
      rfl
    obtain ⟨_, _, each, _⟩ := projections_agree _ .standard violations
      (by
        intro unsatisfied mem
        rw [List.mem_singleton.mp mem]
        exact ordered) projected
    obtain ⟨violation, insight, violation_at, _, agree, content, _⟩ := each 0 _ rfl
    obtain ⟨length_eq, metadata_at, resource_at⟩ := content {} {} .standard rfl rfl
    obtain ⟨found, found_at, image_eq⟩ := agree.metadata
    obtain rfl := Option.some.inj (found_at.symm.trans metadata_at)
    exact ⟨violations, violation, insight, rfl, violation_at, agree.message, length_eq, metadata_at,
      resource_at, Option.some.inj (image_eq.symm.trans seven)⟩

end ReviewResult
end PolicyReview
