import PolicyReview.Proofs.Review.Decision

/-!
# What a review depends on

A review looks at a request through few openings: the target, the field of the resource that holds
its name, and the results that the responses list under the target.  They decide whether it fails,
how, and with which violations.  Only when they allow a result are the resource and the resource as
submitted put into it, whole.
-/

namespace PolicyReview

/-- What the engine answered for the target of a request. -/
def ReviewRequest.results? (request : ReviewRequest) : Option (List EvalResult) :=
  (request.responses.byTarget.find? request.target).map (·.results)

/-- The violations and the insights of an output. -/
def ReviewOutput.findings (output : ReviewOutput) : List Violation × List Insight :=
  (output.violations, output.insights)

namespace ReviewResult

/-- The name of a resource, from the value of the field that holds it. -/
def nameOf (config : ReviewConfig) (target : String) (field : Option Dynamic) :
    Except ReviewError String :=
  match field with
  | none => .error (.missingField target config.nameField)
  | some value =>
    match value.asString? with
    | some name => .ok name
    | none => .error (.typeMismatch target config.nameField value.typeName)

/-- Of a resource, its name needs one field only. -/
theorem resourceName_eq_nameOf (config : ReviewConfig) (target : String) (resource : DynamicMap) :
    resourceName config target resource =
      nameOf config target (resource.find? config.nameField) := by
  cases field : resource.find? config.nameField with
  | none => exact resourceName_of_absent field
  | some found =>
    cases found with
    | string name => exact resourceName_of_string field
    | _ => exact resourceName_of_asString?_eq_none field rfl

end ReviewResult

namespace Reviewer

variable (reviewer : Reviewer)

/-- What a review decides before the resource is put into a result. -/
structure Core where
  name : String
  results : List EvalResult
  violations : List Violation

namespace Core

/-- The result for a request. -/
def result (core : Core) (request : ReviewRequest) : ReviewResult :=
  ⟨core.name, request.resource, request.reviewed.getD request.resource,
    core.results.map ReviewResult.violationOf⟩

/-- The output for a request. -/
def output (core : Core) (request : ReviewRequest) : ReviewOutput :=
  ⟨core.result request, core.violations,
    (core.result request).toInsights reviewer.config.insights⟩

/-- The resource as submitted is in no finding. -/
theorem findings_output (core : Core) {first second : ReviewRequest}
    (resource_eq : first.resource = second.resource) :
    (core.output reviewer first).findings = (core.output reviewer second).findings := by
  simp only [output, result, ReviewOutput.findings, ReviewResult.toInsights, resource_eq]

end Core

/-- The core of a review, from all that a review sees of a request at first: the target, the field
of the name, and the results for the target. -/
def core (target : String) (field : Option Dynamic) (results? : Option (List EvalResult)) :
    Except ReviewFailure Core :=
  match results? with
  | none => .error ⟨buildContext target, .notFound target⟩
  | some results =>
    match ReviewResult.nameOf reviewer.config target field with
    | .error error => .error ⟨buildContext target, error⟩
    | .ok name =>
      match ConstraintViolation.toViolationsFrom name 0 (results.map ReviewResult.violationOf) with
      | .error error => .error ⟨projectContext name, error⟩
      | .ok violations => .ok ⟨name, results, violations⟩

/-- The results of a core are those that it was given. -/
theorem results?_of_core_eq_ok {target : String} {field : Option Dynamic}
    {results? : Option (List EvalResult)} {decided : Core}
    (core_eq : reviewer.core target field results? = .ok decided) :
    results? = some decided.results := by
  unfold core at core_eq
  split at core_eq
  case h_1 => cases core_eq
  case h_2 results =>
    split at core_eq
    case h_1 => cases core_eq
    case h_2 name _ =>
      split at core_eq
      case h_1 => cases core_eq
      case h_2 violations _ =>
        cases core_eq
        rfl

/-- The core of the review of a request. -/
def coreOf (request : ReviewRequest) : Except ReviewFailure Core :=
  reviewer.core request.target (request.resource.find? reviewer.config.nameField) request.results?

/-- A review is its core, with the request put in. -/
theorem review_eq_core (request : ReviewRequest) :
    reviewer.review request =
      (reviewer.coreOf request).map fun decided => decided.output reviewer request := by
  unfold coreOf core ReviewRequest.results?
  cases present : request.responses.byTarget.find? request.target with
  | none => exact review_of_built_error (built_of_absent present)
  | some response =>
    have built_eq := built_of_present reviewer present
    rw [ReviewResult.resourceName_eq_nameOf] at built_eq
    cases named : ReviewResult.nameOf reviewer.config request.target
        (request.resource.find? reviewer.config.nameField) with
    | error error =>
      rw [named] at built_eq
      simp only [Option.map_some]
      exact review_of_built_error built_eq
    | ok name =>
      rw [named] at built_eq
      rw [review_of_built built_eq]
      -- What is projected is the violations of the built result, from the first on.
      have toViolations_eq : ReviewResult.toViolations ⟨name, request.resource,
          request.reviewed.getD request.resource, response.results.map ReviewResult.violationOf⟩ =
          ConstraintViolation.toViolationsFrom name 0
            (response.results.map ReviewResult.violationOf) := rfl
      cases projected : ConstraintViolation.toViolationsFrom name 0
          (response.results.map ReviewResult.violationOf) with
      | error error =>
        simp only [Option.map_some, projected]
        exact project_of_toViolations_error (toViolations_eq.trans projected)
      | ok violations =>
        simp only [Option.map_some, projected]
        exact project_of_toViolations (toViolations_eq.trans projected)

/-- The target, the field of the name and the results decide the violations, and every error. -/
theorem violations_congr {first second : ReviewRequest} (target_eq : first.target = second.target)
    (field_eq : first.resource.find? reviewer.config.nameField =
      second.resource.find? reviewer.config.nameField)
    (results_eq : first.results? = second.results?) :
    (reviewer.review first).map (·.violations) = (reviewer.review second).map (·.violations) := by
  have core_eq : reviewer.coreOf first = reviewer.coreOf second := by
    rw [coreOf, coreOf, target_eq, field_eq, results_eq]
  rw [review_eq_core, review_eq_core, core_eq]
  cases reviewer.coreOf second <;> rfl

/-- The target, the resource and the results decide every finding, and every error. -/
theorem findings_congr {first second : ReviewRequest} (target_eq : first.target = second.target)
    (resource_eq : first.resource = second.resource)
    (results_eq : first.results? = second.results?) :
    (reviewer.review first).map (·.findings) = (reviewer.review second).map (·.findings) := by
  have core_eq : reviewer.coreOf first = reviewer.coreOf second := by
    rw [coreOf, coreOf, target_eq, resource_eq, results_eq]
  rw [review_eq_core, review_eq_core, core_eq]
  cases reviewer.coreOf second with
  | error failure => rfl
  | ok decided => exact congrArg Except.ok (decided.findings_output reviewer resource_eq)

/-- What is put into a result stays as it is, and in its order. -/
theorem exists_results_of_review_eq_ok {request : ReviewRequest} {output : ReviewOutput}
    (reviewed : reviewer.review request = .ok output) :
    output.result.resource = request.resource ∧
      output.result.reviewed = request.reviewed.getD request.resource ∧
      ∃ results, request.results? = some results ∧
        output.result.violations =
          results.map fun result => ⟨result.msg, result.metadata, result.constraint⟩ := by
  rw [review_eq_core] at reviewed
  cases core_eq : reviewer.coreOf request with
  | error failure =>
    rw [core_eq] at reviewed
    cases reviewed
  | ok decided =>
    rw [core_eq] at reviewed
    cases reviewed
    exact ⟨rfl, rfl, decided.results, results?_of_core_eq_ok reviewer core_eq, rfl⟩

/-- Without a resource as submitted, the resource as inventoried stands in for it. -/
theorem review_of_reviewed_none (request : ReviewRequest) :
    reviewer.review { request with reviewed := none } =
      reviewer.review { request with reviewed := some request.resource } := by
  rw [review_eq_core, review_eq_core]
  rfl

/-- What the parts of a request have to do with its review. -/
theorem review_dependence (reviewer : Reviewer) :
    (∀ first second : ReviewRequest, first.target = second.target →
      first.resource = second.resource → first.results? = second.results? →
      (reviewer.review first).map (·.findings) = (reviewer.review second).map (·.findings)) ∧
    (∀ request output, reviewer.review request = .ok output →
      output.result.resource = request.resource ∧
      output.result.reviewed = request.reviewed.getD request.resource ∧
      ∃ results, request.results? = some results ∧
        output.result.violations =
          results.map fun result => ⟨result.msg, result.metadata, result.constraint⟩) ∧
    (∀ request : ReviewRequest, reviewer.review { request with reviewed := none } =
      reviewer.review { request with reviewed := some request.resource }) ∧
    ∀ first second : ReviewRequest, first.target = second.target →
      first.resource.find? reviewer.config.nameField =
        second.resource.find? reviewer.config.nameField →
      first.results? = second.results? →
      (reviewer.review first).map (·.violations) = (reviewer.review second).map (·.violations) :=
  ⟨fun _ _ => reviewer.findings_congr, fun _ _ => reviewer.exists_results_of_review_eq_ok,
    reviewer.review_of_reviewed_none, fun _ _ => reviewer.violations_congr⟩

/-- The target inside a response, the response for another target and the resource as submitted
leave no trace in the findings. -/
theorem review_of_relabelled_response :
    let unowned : EvalResult := ⟨"no owner", [], ⟨"", "Owner", "owned"⟩⟩
    let first : ReviewRequest :=
      ⟨"audit", [("name", .string "disk")], none, ⟨[("audit", ⟨"audit", [unowned]⟩)]⟩⟩
    let second : ReviewRequest :=
      ⟨"audit", [("name", .string "disk")], some [],
        ⟨[("audit", ⟨"scan", [unowned]⟩), ("scan", ⟨"scan", []⟩)]⟩⟩
    (review {} first).map (·.findings) = (review {} second).map (·.findings) ∧
      ∃ output, review {} second = .ok output ∧ output.result.reviewed = [] ∧
        output.violations.length = 1 := by
  intro unowned first second
  obtain ⟨output, reviewed, one⟩ :
    ∃ output, review {} second = .ok output ∧ output.violations.length = 1 := ⟨_, rfl, rfl⟩
  have kept := (review_dependence {}).2.1 second output reviewed
  exact ⟨(review_dependence {}).1 first second rfl rfl rfl, output, reviewed, kept.2.1, one⟩

end Reviewer
end PolicyReview
