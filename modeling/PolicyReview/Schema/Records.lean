import PolicyReview.Schema.Basic

/-!
# Schemas of the records of a review

Every record that is read or written has a schema under the names of its written form.
-/

namespace PolicyReview
namespace Schema

/-- The record of a violation. -/
def violationRecord : Record where
  name := "Violation"
  description := some "Violation record reported through the constraint-violation API."
  properties := [
    { name := "constraint", kind := .string, description := some "Name of the violated constraint." },
    { name := "resource", kind := .string, description := some "Name of the reviewed resource." },
    { name := "message", kind := .string },
    { name := "metadata", kind := .anything }]

/-- The record of an insight. -/
def insightRecord : Record where
  name := "Insight"
  description := some "Security finding handed to the insights sink."
  properties := [
    { name := "description", kind := .string },
    { name := "targetResources", kind := .list .string,
      description := some "Always a single entry: the owning resource's name." },
    { name := "insightSubtype", kind := .string },
    { name := "content", kind := .table .anything,
      description := some "The raw CAI resource and the violation metadata, under two keys." },
    { name := "category", kind := .string }]

/-- What is said about constraint references. -/
def constraintDescription : String :=
  "Reference to the constraint that produced a violation.\n\n" ++
  "The constraint definition itself is owned by the evaluation engine; only\n" ++
  "its identity (`api_version` + `kind`) and `name` are carried here.\n\n" ++
  "Serializes flat. Deserializes from either the flat form\n" ++
  "(`\x7b\"apiVersion\", \"kind\", \"name\"\x7d`) or a Kubernetes-style constraint\n" ++
  "object whose name lives under `metadata.name`."

/-- The record of a constraint reference. -/
def constraintRecord : Record where
  name := "ConstraintRef"
  description := some constraintDescription
  properties := [
    { name := "apiVersion", kind := .string },
    { name := "kind", kind := .string },
    { name := "name", kind := .string }]

/-- The record of a result of the engine. -/
def evalResultRecord : Record where
  name := "EvalResult"
  properties := [
    { name := "msg", kind := .string },
    { name := "metadata", kind := .table .anything,
      description := some "Absent and `null` both read as an empty map.",
      fallback := some (.object []) },
    { name := "constraint", kind := .record "ConstraintRef" }]

/-- The record of a response. -/
def responseRecord : Record where
  name := "Response"
  properties := [
    { name := "target", kind := .string },
    { name := "results", kind := .list (.record "EvalResult"),
      description := some "One entry per unsatisfied constraint, in engine order.",
      fallback := some (.list []) }]

/-- The record of the responses of a review. -/
def responsesRecord : Record where
  name := "Responses"
  description := some "Per-target responses for one review."
  properties := [
    { name := "byTarget", kind := .table (.record "Response"), fallback := some (.object []) }]

/-- The schema of violations. -/
def violation : Document := ⟨violationRecord, []⟩

/-- The schema of insights. -/
def insight : Document := ⟨insightRecord, []⟩

/-- The schema of constraint references. -/
def constraint : Document := ⟨constraintRecord, []⟩

/-- The schema of results of the engine. -/
def evalResult : Document := ⟨evalResultRecord, [constraintRecord]⟩

/-- The schema of responses for one target. -/
def response : Document := ⟨responseRecord, [constraintRecord, evalResultRecord]⟩

/-- The schema of the responses of a review. -/
def responses : Document :=
  ⟨responsesRecord, [constraintRecord, evalResultRecord, responseRecord]⟩

end Schema
end PolicyReview
