import PolicyReview.Proofs.Record.Response
import PolicyReview.Proofs.Review.Decision
import PolicyReview.Proofs.Review.Rendering

/-!
# Reviews of what the engine answered

Metadata that came from the engine was read from a text inside several brackets, so it is finite and
far enough below the nesting limit: it is always encoded, and the violations are read back from
their lines.  A review of such responses fails only before it looks at any metadata.
-/

namespace PolicyReview

theorem encodable_of_fits {result : EvalResult} {budget : Nat} (fits : result.Fits budget)
    (budget_le : budget ≤ 127) : Encodable result.metadata :=
  ⟨fits.finite, Nat.le_trans fits.depth_le budget_le⟩

/-- The metadata of a violation is sorted and as deep as that of its result. -/
theorem metadata_of_projects {name : String} {result : EvalResult} {violation : Violation}
    {budget : Nat} (fits : result.Fits budget) (projects : Projects name result violation) :
    violation.metadata.Ordered ∧ violation.metadata.depth ≤ budget := by
  obtain ⟨metadata, metadata_eq, rfl⟩ := projects
  have image_eq := Structured.image?_of_encodeMetadata fits.ordered metadata_eq
  refine ⟨Structured.ordered_of_image? image_eq fits.ordered, ?_⟩
  rw [Structured.depth_eq_of_image? image_eq]
  exact fits.depth_le

theorem metadata_of_forall₂_projects {name : String} {results : List EvalResult}
    {violations : List Violation} {budget : Nat} (fits : ∀ result ∈ results, result.Fits budget)
    (projects : List.Forall₂ (Projects name) results violations) :
    ∀ violation ∈ violations, violation.metadata.Ordered ∧ violation.metadata.depth ≤ budget := by
  induction projects with
  | nil => exact List.forall_mem_nil _
  | cons head _ ih =>
    obtain ⟨first_fits, rest_fits⟩ := List.forall_mem_cons.mp fits
    exact List.forall_mem_cons.mpr ⟨metadata_of_projects first_fits head, ih rest_fits⟩

/-- Violations with metadata below the nesting limit are read back from their lines. -/
theorem forall₂_ofText_linesOf {violations : List Violation}
    (metadata : ∀ violation ∈ violations,
      violation.metadata.Ordered ∧ violation.metadata.depth ≤ 126) :
    List.Forall₂ (fun line violation => Violation.ofText line = .ok violation)
      (linesOf (joinedLines violations)) violations := by
  apply forall₂_linesOf
  intro violation violation_mem
  obtain ⟨ordered, depth_le⟩ := metadata violation violation_mem
  exact (Violation.ofText_text_eq_ok_iff ordered).mpr depth_le

theorem ReviewResult.exists_of_build_eq_ok {config : ReviewConfig} {target : String}
    {resource reviewed : DynamicMap} {responses : Responses} {result : ReviewResult}
    (built : build config target resource reviewed responses = .ok result) :
    ∃ response name, responses.target? target = some response ∧
      result = ⟨name, resource, reviewed, response.results.map violationOf⟩ := by
  unfold build at built
  split at built
  · cases built
  · rename_i response present
    obtain ⟨name, _, built⟩ := exists_of_bind_eq_ok built
    cases built
    exact ⟨response, name, present, rfl⟩

/-- A result built from responses of texts has violations, and each is read back from its line. -/
theorem exists_toViolations_of_fits {config : ReviewConfig} {target : String}
    {resource reviewed : DynamicMap} {responses : Responses} {result : ReviewResult}
    (fits : responses.Fits 125)
    (built : ReviewResult.build config target resource reviewed responses = .ok result) :
    ∃ violations, result.toViolations = .ok violations ∧
      List.Forall₂ (fun line violation => Violation.ofText line = .ok violation)
        (linesOf (joinedLines violations)) violations := by
  obtain ⟨response, name, present, rfl⟩ := ReviewResult.exists_of_build_eq_ok built
  have response_fits := Responses.fits_of_target? fits present
  obtain ⟨violations, projects⟩ := exists_forall₂_projects name fun eval eval_mem =>
    encodable_of_fits (response_fits eval eval_mem) (by decide)
  refine ⟨violations, ReviewResult.toViolations_eq_ok projects, forall₂_ofText_linesOf ?_⟩
  intro violation violation_mem
  obtain ⟨ordered, depth_le⟩ :=
    metadata_of_forall₂_projects response_fits projects violation violation_mem
  exact ⟨ordered, Nat.le_trans depth_le (by decide)⟩

/-- A review of responses of texts fails before it looks at metadata. -/
theorem error_of_review_of_fits {reviewer : Reviewer} {request : ReviewRequest}
    {failure : ReviewFailure} (fits : request.responses.Fits 125)
    (failed : reviewer.review request = .error failure) :
    failure.error = .notFound request.target ∨
      failure.error = .missingField request.target reviewer.config.nameField ∨
      ∃ found, failure.error =
        .typeMismatch request.target reviewer.config.nameField found := by
  rw [Reviewer.review_eq_iff_decides] at failed
  cases failed with
  | notFound absent => exact .inl rfl
  | missingField response present absent => exact .inr (.inl rfl)
  | typeMismatch response found present field notString => exact .inr (.inr ⟨_, rfl⟩)
  | refused response name before after result error present field results_eq _ notEncodable =>
    have response_fits := Responses.fits_of_target? fits present
    have result_mem : result ∈ response.results := by simp [results_eq]
    exact absurd (encodable_of_fits (response_fits result result_mem) (by decide)) notEncodable

/-- Metadata that came from texts never fails conversion. -/
theorem conversion_of_fromTexts {responses : Responses} (fromTexts : responses.FromTexts) :
    (∀ config target resource reviewed result,
      ReviewResult.build config target resource reviewed responses = .ok result →
      ∃ violations, result.toViolations = .ok violations ∧
        ∃ text, violationLines violations = .ok text ∧ ∃ lines : List String,
          text.toList.splitOn '\n' = lines.map String.toList ++ [[]] ∧
          List.Forall₂ (fun line violation => Violation.ofText line = .ok violation)
            lines violations) ∧
    ∀ (reviewer : Reviewer) target resource reviewed failure,
      reviewer.review ⟨target, resource, reviewed, responses⟩ = .error failure →
      failure.error = .notFound target ∨
        failure.error = .missingField target reviewer.config.nameField ∨
        ∃ found, failure.error = .typeMismatch target reviewer.config.nameField found := by
  constructor
  · intro config target resource reviewed result built
    obtain ⟨violations, violations_eq, lines_read⟩ :=
      exists_toViolations_of_fits fromTexts.fits built
    refine ⟨violations, violations_eq, joinedLines violations, violationLines_eq_ok violations,
      linesOf (joinedLines violations), ?_, lines_read⟩
    exact splitOn_joinedLines_eq_linesOf violations
  · intro reviewer target resource reviewed failure failed
    exact error_of_review_of_fits fromTexts.fits failed

/-- A response in list form, whose one result has a word in its metadata. -/
theorem conversion_of_one_listed_result :
    ∃ response result violations lines,
      Response.ofText
        "[\"t\",[[\"m\",\x7b\"size\":[2.5]\x7d,\x7b\"name\":\"n\"\x7d]]]" = .ok response ∧
      response.results.length = 1 ∧
      ReviewResult.build .standard "t" [("name", .string "bucket")] []
        (Responses.empty.insert response) = .ok result ∧
      result.toViolations = .ok violations ∧
      List.Forall₂ (fun line violation => Violation.ofText line = .ok violation)
        lines violations := by
  have checked : ((Response.ofText
      "[\"t\",[[\"m\",\x7b\"size\":[2.5]\x7d,\x7b\"name\":\"n\"\x7d]]]").toOption.any
        fun response => response.target == "t" && response.results.length == 1) = true := by
    decide +kernel
  cases response_read : Response.ofText
    "[\"t\",[[\"m\",\x7b\"size\":[2.5]\x7d,\x7b\"name\":\"n\"\x7d]]]" with
  | error error =>
    rw [response_read] at checked
    cases checked
  | ok response =>
    rw [response_read] at checked
    obtain ⟨target_eq, length_eq⟩ : response.target = "t" ∧ response.results.length = 1 := by
      simpa [Except.toOption] using checked
    have present : (Responses.empty.insert response).target? "t" = some response := by
      rw [Responses.target?, Responses.insert, Entries.find?_insert, if_pos target_eq.symm]
    obtain ⟨converts, _⟩ := conversion_of_fromTexts (.insert .empty response_read)
    have built : ReviewResult.build .standard "t" [("name", .string "bucket")] []
        (Responses.empty.insert response) = .ok ⟨"bucket", [("name", .string "bucket")], [],
          response.results.map ReviewResult.violationOf⟩ := by
      simp only [ReviewResult.build, present]
      rfl
    obtain ⟨violations, violations_eq, _, _, lines, _, lines_read⟩ := converts _ _ _ _ _ built
    exact ⟨response, _, violations, lines, rfl, length_eq, built, violations_eq, lines_read⟩

end PolicyReview
