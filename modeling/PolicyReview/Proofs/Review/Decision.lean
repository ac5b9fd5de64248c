import PolicyReview.Proofs.Review.Projection
import PolicyReview.Review.Reviewer

/-!
# Decision of a review

A review is decided in a fixed order: the response for the target is looked up first, then the name
of the resource, then the metadata of each result in the order of the engine.  The first check that
fails is the outcome, with the error of the stage it belongs to.
-/

namespace PolicyReview
namespace Reviewer

/-- What is being done while the result for a target is built. -/
def buildContext (target : String) : String :=
  "build review result for target '" ++ target ++ "'"

/-- What is being done while the violations of a resource are projected. -/
def projectContext (resource : String) : String :=
  "convert violations for '" ++ resource ++ "'"

/-- The outcomes of a review, in the order in which they are decided. -/
inductive Decides (reviewer : Reviewer) (request : ReviewRequest) : ReviewOutcome → Prop where
  /-- The target is no key of the responses, whatever the resource looks like. -/
  | notFound (absent : request.responses.byTarget.find? request.target = none) :
    Decides reviewer request (.error ⟨buildContext request.target, .notFound request.target⟩)
  | missingField (response : Response)
    (present : request.responses.byTarget.find? request.target = some response)
    (absent : request.resource.find? reviewer.config.nameField = none) :
    Decides reviewer request (.error ⟨buildContext request.target,
      .missingField request.target reviewer.config.nameField⟩)
  | typeMismatch (response : Response) (found : Dynamic)
    (present : request.responses.byTarget.find? request.target = some response)
    (field : request.resource.find? reviewer.config.nameField = some found)
    (notString : found.asString? = none) :
    Decides reviewer request (.error ⟨buildContext request.target,
      .typeMismatch request.target reviewer.config.nameField found.typeName⟩)
  /-- The metadata of a result is refused, and that of no earlier result. -/
  | refused (response : Response) (name : String) (before after : List EvalResult)
    (result : EvalResult) (error : ReviewError)
    (present : request.responses.byTarget.find? request.target = some response)
    (field : request.resource.find? reviewer.config.nameField = some (.string name))
    (results_eq : response.results = before ++ result :: after)
    (encodable : ∀ earlier ∈ before, Encodable earlier.metadata)
    (notEncodable : ¬ Encodable result.metadata)
    (refuses : Refuses ⟨name, result.constraint.name, before.length⟩ result.metadata error) :
    Decides reviewer request (.error ⟨projectContext name, error⟩)
  | projected (response : Response) (name : String) (violations : List Violation)
    (present : request.responses.byTarget.find? request.target = some response)
    (field : request.resource.find? reviewer.config.nameField = some (.string name))
    (encodable : ∀ result ∈ response.results, Encodable result.metadata)
    (projects : List.Forall₂ (Projects name) response.results violations) :
    Decides reviewer request (.ok
      { result := ⟨name, request.resource, request.reviewed.getD request.resource,
          response.results.map ReviewResult.violationOf⟩
        violations := violations
        insights := response.results.map fun result =>
          { description := result.msg
            targetResources := [name]
            subtype := result.constraint.name
            content := ReviewResult.insightContent reviewer.config.insights request.resource
              result.metadata
            category := reviewer.config.insights.category } })

variable {reviewer : Reviewer} {request : ReviewRequest}

/-- The result that a review builds first. -/
def built (reviewer : Reviewer) (request : ReviewRequest) : Except ReviewError ReviewResult :=
  ReviewResult.build reviewer.config request.target request.resource
    (request.reviewed.getD request.resource) request.responses

theorem buildResult_of_built_error {error : ReviewError}
    (built_eq : reviewer.built request = .error error) :
    reviewer.buildResult request = .error ⟨buildContext request.target, error⟩ := by
  unfold built at built_eq
  simp only [buildResult, built_eq]
  rfl

theorem buildResult_of_built {result : ReviewResult}
    (built_eq : reviewer.built request = .ok result) :
    reviewer.buildResult request = .ok result := by
  unfold built at built_eq
  simp only [buildResult, built_eq]

theorem review_of_built_error {error : ReviewError}
    (built_eq : reviewer.built request = .error error) :
    reviewer.review request = .error ⟨buildContext request.target, error⟩ := by
  simp only [review, run, buildResult_of_built_error built_eq]

theorem review_of_built {result : ReviewResult} (built_eq : reviewer.built request = .ok result) :
    reviewer.review request = reviewer.project result := by
  simp only [review, run, buildResult_of_built built_eq]
  cases reviewer.project result <;> rfl

theorem project_of_toViolations_error {result : ReviewResult} {error : ReviewError}
    (refused : result.toViolations = .error error) :
    reviewer.project result = .error ⟨projectContext result.name, error⟩ := by
  simp only [project, refused]
  rfl

theorem project_of_toViolations {result : ReviewResult} {violations : List Violation}
    (projected : result.toViolations = .ok violations) :
    reviewer.project result =
      .ok ⟨result, violations, result.toInsights reviewer.config.insights⟩ := by
  rw [project, projected]

theorem built_of_absent (absent : request.responses.byTarget.find? request.target = none) :
    reviewer.built request = .error (.notFound request.target) := by
  simp only [built, ReviewResult.build, Responses.target?, absent]

theorem built_of_present (reviewer : Reviewer) {response : Response}
    (present : request.responses.byTarget.find? request.target = some response) :
    reviewer.built request =
      (ReviewResult.resourceName reviewer.config request.target request.resource).map fun name =>
        ⟨name, request.resource, request.reviewed.getD request.resource,
          response.results.map ReviewResult.violationOf⟩ := by
  simp only [built, ReviewResult.build, Responses.target?, present]
  rfl

end Reviewer

namespace ReviewResult

variable {config : ReviewConfig} {target : String} {resource : DynamicMap}

theorem resourceName_of_absent (absent : resource.find? config.nameField = none) :
    resourceName config target resource = .error (.missingField target config.nameField) := by
  simp only [resourceName, Dynamic.getString, absent]

theorem resourceName_of_string {name : String}
    (field : resource.find? config.nameField = some (.string name)) :
    resourceName config target resource = .ok name := by
  simp only [resourceName, Dynamic.getString, field]

theorem resourceName_of_asString?_eq_none {found : Dynamic}
    (field : resource.find? config.nameField = some found) (notString : found.asString? = none) :
    resourceName config target resource =
      .error (.typeMismatch target config.nameField found.typeName) := by
  cases found with
  | string text => cases notString
  | _ => simp only [resourceName, Dynamic.getString, field]

end ReviewResult

namespace Reviewer

variable {reviewer : Reviewer} {request : ReviewRequest}

/-- The outcome of a review is the one that is decided. -/
theorem review_eq_of_decides {outcome : ReviewOutcome}
    (decides : reviewer.Decides request outcome) : reviewer.review request = outcome := by
  cases decides with
  | notFound absent => exact review_of_built_error (built_of_absent absent)
  | missingField response present absent =>
    apply review_of_built_error
    rw [built_of_present reviewer present, ReviewResult.resourceName_of_absent absent]
    rfl
  | typeMismatch response found present field notString =>
    apply review_of_built_error
    rw [built_of_present reviewer present,
      ReviewResult.resourceName_of_asString?_eq_none field notString]
    rfl
  | refused response name before after result error present field results_eq encodable _ refuses =>
    have built_eq := built_of_present reviewer present
    rw [ReviewResult.resourceName_of_string field, results_eq, Except.map] at built_eq
    rw [review_of_built built_eq]
    exact project_of_toViolations_error (ReviewResult.toViolations_eq_error encodable refuses)
  | projected response name violations present field encodable projects =>
    have built_eq := built_of_present reviewer present
    rw [ReviewResult.resourceName_of_string field, Except.map] at built_eq
    rw [review_of_built built_eq,
      project_of_toViolations (ReviewResult.toViolations_eq_ok projects)]
    simp [ReviewResult.toInsights, ReviewResult.violationOf, Function.comp_def]

/-- Some outcome is decided for every request. -/
theorem exists_decides (reviewer : Reviewer) (request : ReviewRequest) :
    ∃ outcome, reviewer.Decides request outcome := by
  cases present : request.responses.byTarget.find? request.target with
  | none => exact ⟨_, .notFound present⟩
  | some response =>
    cases field : request.resource.find? reviewer.config.nameField with
    | none => exact ⟨_, .missingField response present field⟩
    | some found =>
      cases string : found.asString? with
      | none => exact ⟨_, .typeMismatch response found present field string⟩
      | some name =>
        -- Only a string is read as a string.
        obtain rfl : found = .string name := by
          cases found <;> cases string
          rfl
        rcases forall_or_first (fun result => Encodable result.metadata) response.results with
          encodable | ⟨before, result, after, results_eq, encodable, notEncodable⟩
        · obtain ⟨violations, projects⟩ := exists_forall₂_projects name encodable
          exact ⟨_, .projected response name violations present field encodable projects⟩
        · obtain ⟨error, refuses⟩ :=
            exists_refuses ⟨name, result.constraint.name, before.length⟩ notEncodable
          exact ⟨_, .refused response name before after result error present field results_eq
            encodable notEncodable refuses⟩

theorem review_eq_iff_decides {outcome : ReviewOutcome} :
    reviewer.review request = outcome ↔ reviewer.Decides request outcome := by
  constructor
  · rintro rfl
    obtain ⟨outcome, decides⟩ := exists_decides reviewer request
    rwa [review_eq_of_decides decides]
  · exact review_eq_of_decides

end Reviewer

/-- Nothing underlies an error of building a result. -/
theorem ReviewResult.source?_of_build_error {config : ReviewConfig} {target : String}
    {resource reviewed : DynamicMap} {responses : Responses} {error : ReviewError}
    (failed : build config target resource reviewed responses = .error error) :
    error.source? = none := by
  unfold build at failed
  split at failed
  · cases failed
    rfl
  · cases name_eq : resourceName config target resource with
    | ok name =>
      rw [name_eq] at failed
      cases failed
    | error name_error =>
      rw [name_eq] at failed
      cases failed
      unfold resourceName at name_eq
      split at name_eq <;> cases name_eq <;> rfl

/-- An error of projecting violations has another error underneath. -/
theorem ConstraintViolation.exists_source?_of_toViolationsFrom_error {resource : String}
    {index : Nat} {violations : List ConstraintViolation} {error : ReviewError}
    (failed : toViolationsFrom resource index violations = .error error) :
    ∃ source, error.source? = some source := by
  induction violations generalizing index with
  | nil => cases failed
  | cons violation violations ih =>
    rw [toViolationsFrom] at failed
    cases first : violation.toViolation resource index with
    | error first_error =>
      rw [first] at failed
      cases failed
      unfold toViolation at first
      split at first <;> cases first <;> exact ⟨_, rfl⟩
    | ok value =>
      rw [first] at failed
      cases rest : toViolationsFrom resource (index + 1) violations with
      | error rest_error =>
        rw [rest] at failed
        cases failed
        exact ih rest
      | ok values =>
        rw [rest] at failed
        cases failed

namespace Reviewer

variable {reviewer : Reviewer} {request : ReviewRequest}

/-- A failed review keeps the error of the stage that failed, behind what was being done. -/
theorem kept_error_of_review_error {failure : ReviewFailure}
    (failed : reviewer.review request = .error failure) :
    (reviewer.built request = .error failure.error ∧
      failure.chain = [buildContext request.target, failure.error.message]) ∨
    ∃ result source, reviewer.built request = .ok result ∧
      result.toViolations = .error failure.error ∧ failure.error.source? = some source ∧
      failure.chain = [projectContext result.name, failure.error.message, source] := by
  cases built_eq : reviewer.built request with
  | error error =>
    rw [review_of_built_error built_eq] at failed
    cases failed
    have no_source := ReviewResult.source?_of_build_error built_eq
    exact .inl ⟨rfl, by simp only [ReviewFailure.chain, ReviewError.chain, no_source]; rfl⟩
  | ok result =>
    rw [review_of_built built_eq] at failed
    cases projected : result.toViolations with
    | error error =>
      rw [project_of_toViolations_error projected] at failed
      cases failed
      obtain ⟨source, source_eq⟩ :=
        ConstraintViolation.exists_source?_of_toViolationsFrom_error projected
      exact .inr ⟨result, source, rfl, projected, source_eq,
        by simp only [ReviewFailure.chain, ReviewError.chain, source_eq]; rfl⟩
    | ok violations =>
      rw [project_of_toViolations projected] at failed
      cases failed

/-- A review that succeeds has one violation and one insight for each result of the engine. -/
theorem lengths_of_review_ok {output : ReviewOutput}
    (reviewed : reviewer.review request = .ok output) :
    ∃ response, request.responses.byTarget.find? request.target = some response ∧
      output.violations.length = response.results.length ∧
      output.insights.length = response.results.length := by
  rw [review_eq_iff_decides] at reviewed
  cases reviewed with
  | projected response name violations present field encodable projects =>
    exact ⟨response, present, projects.length_eq.symm, List.length_map _⟩

/-- The decision of a whole review, with the errors that failures keep and the sizes of what a
success yields. -/
theorem review_decision (reviewer : Reviewer) (request : ReviewRequest) :
    (∀ outcome, reviewer.review request = outcome ↔ reviewer.Decides request outcome) ∧
    (∀ failure, reviewer.review request = .error failure →
      (reviewer.built request = .error failure.error ∧
        failure.chain = [buildContext request.target, failure.error.message]) ∨
      ∃ result source, reviewer.built request = .ok result ∧
        result.toViolations = .error failure.error ∧ failure.error.source? = some source ∧
        failure.chain = [projectContext result.name, failure.error.message, source]) ∧
    ∀ output, reviewer.review request = .ok output →
      ∃ response, request.responses.byTarget.find? request.target = some response ∧
        output.violations.length = response.results.length ∧
        output.insights.length = response.results.length :=
  ⟨fun _ => review_eq_iff_decides, fun _ => kept_error_of_review_error,
    fun _ => lengths_of_review_ok⟩

end Reviewer
end PolicyReview
