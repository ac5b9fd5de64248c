import PolicyReview.Record.Finding
import PolicyReview.Record.Response
import PolicyReview.Review.Config
import PolicyReview.Review.Error

/-!
# Review results

A review binds the results for one target to the resource that they were computed for.  The result
is projected into violations, which needs the metadata of each to be encoded and fails at the first
that cannot be, and into insights, which never fails.
-/

namespace PolicyReview

/-- One constraint that the resource does not satisfy. -/
structure ConstraintViolation where
  message : String
  metadata : DynamicMap
  constraint : ConstraintRef

/-- The outcome of reviewing one resource. -/
structure ReviewResult where
  /-- Name of the resource. -/
  name : String
  /-- The resource as inventoried. -/
  resource : DynamicMap
  /-- The resource as submitted for review. -/
  reviewed : DynamicMap
  /-- In the order of the engine. -/
  violations : List ConstraintViolation

namespace ReviewResult

/-- No constraint is violated. -/
def isClean (result : ReviewResult) : Bool :=
  result.violations.isEmpty

/-- The violation that a result of the engine stands for. -/
def violationOf (result : EvalResult) : ConstraintViolation :=
  ⟨result.msg, result.metadata, result.constraint⟩

/-- The name of a resource. -/
def resourceName (config : ReviewConfig) (target : String) (resource : DynamicMap) :
    Except ReviewError String :=
  match Dynamic.getString resource config.nameField with
  | .ok name => .ok name
  | .error (.missing field) => .error (.missingField target field)
  | .error (.notString field found) => .error (.typeMismatch target field found)

/-- Build the result for a target.  The response is looked up before the resource is looked at. -/
def build (config : ReviewConfig) (target : String) (resource reviewed : DynamicMap)
    (responses : Responses) : Except ReviewError ReviewResult :=
  match responses.target? target with
  | none => .error (.notFound target)
  | some response => do
    let name ← resourceName config target resource
    .ok ⟨name, resource, reviewed, response.results.map violationOf⟩

end ReviewResult

namespace ConstraintViolation

/-- The violation at a place of a result. -/
def toViolation (violation : ConstraintViolation) (resource : String) (index : Nat) :
    Except ReviewError Violation :=
  let place : ViolationPlace := ⟨resource, violation.constraint.name, index⟩
  match Structured.encodeMetadata violation.metadata with
  | .ok metadata => .ok ⟨violation.constraint.name, resource, violation.message, metadata⟩
  | .error (.write source) => .error (.serialization place source)
  | .error (.read text source) => .error (.encoding place text source)

/-- The violations from a position on; the first that fails is the error. -/
def toViolationsFrom (resource : String) (index : Nat) :
    List ConstraintViolation → Except ReviewError (List Violation)
  | [] => .ok []
  | violation :: violations => do
    let first ← violation.toViolation resource index
    let rest ← toViolationsFrom resource (index + 1) violations
    .ok (first :: rest)

end ConstraintViolation

namespace ReviewResult

/-- The violations of a result. -/
def toViolations (result : ReviewResult) : Except ReviewError (List Violation) :=
  ConstraintViolation.toViolationsFrom result.name 0 result.violations

/-- The content of an insight.  The metadata is put in last, so it stays when the keys are equal. -/
def insightContent (config : InsightConfig) (resource metadata : DynamicMap) : DynamicMap :=
  (Entries.insert [] config.resourceKey (.map resource)).insert config.metadataKey (.map metadata)

/-- The insights of a result. -/
def toInsights (config : InsightConfig) (result : ReviewResult) : List Insight :=
  result.violations.map fun violation =>
    { description := violation.message
      targetResources := [result.name]
      subtype := violation.constraint.name
      content := insightContent config result.resource violation.metadata
      category := config.category }

end ReviewResult
end PolicyReview
