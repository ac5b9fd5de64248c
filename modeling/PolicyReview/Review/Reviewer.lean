import PolicyReview.Review.Log
import PolicyReview.Review.Result

/-!
# Reviewing resources

A reviewer holds an effective configuration.  A review of a request builds the result and projects
it into violations and insights; it is run together with its log.  Many requests are reviewed
independently of one another.
-/

namespace PolicyReview

/-- A resource to review. -/
structure ReviewRequest where
  target : String
  /-- The resource as inventoried. -/
  resource : DynamicMap
  /-- The resource as submitted for review, where it differs. -/
  reviewed : Option DynamicMap
  /-- What the engine answered for the resource. -/
  responses : Responses

/-- What a review produces. -/
structure ReviewOutput where
  result : ReviewResult
  violations : List Violation
  insights : List Insight

/-- A failed review: the error and what was being done. -/
structure ReviewFailure where
  context : String
  error : ReviewError
  deriving DecidableEq

namespace ReviewFailure

/-- The wordings of a failure, outermost first. -/
def chain (failure : ReviewFailure) : List String :=
  failure.context :: failure.error.chain

/-- The wordings of a failure on one line. -/
def line (failure : ReviewFailure) : String :=
  ": ".intercalate failure.chain

end ReviewFailure

/-- The outcome of a review. -/
abbrev ReviewOutcome := Except ReviewFailure ReviewOutput

/-- Reviews resources with an effective configuration. -/
structure Reviewer where
  config : ReviewConfig := {}

namespace Reviewer

/-- Build the result of a request. -/
def buildResult (reviewer : Reviewer) (request : ReviewRequest) :
    Except ReviewFailure ReviewResult :=
  let reviewed := request.reviewed.getD request.resource
  match ReviewResult.build reviewer.config request.target request.resource reviewed
    request.responses with
  | .ok result => .ok result
  | .error error =>
    .error ⟨"build review result for target '" ++ request.target ++ "'", error⟩

/-- Project a result. -/
def project (reviewer : Reviewer) (result : ReviewResult) : ReviewOutcome :=
  match result.toViolations with
  | .ok violations =>
    .ok ⟨result, violations, result.toInsights reviewer.config.insights⟩
  | .error error => .error ⟨"convert violations for '" ++ result.name ++ "'", error⟩

/-- Review a request, with the log of the review. -/
def run (reviewer : Reviewer) (request : ReviewRequest) : List LogEntry × ReviewOutcome :=
  match reviewer.buildResult request with
  | .error failure => ([.opened request.target], .error failure)
  | .ok result =>
    match reviewer.project result with
    | .error failure => ([.opened request.target, .named result.name], .error failure)
    | .ok output =>
      ([.opened request.target, .named result.name,
        .reviewed result.name output.violations.length output.insights.length], .ok output)

/-- Review a request. -/
def review (reviewer : Reviewer) (request : ReviewRequest) : ReviewOutcome :=
  (reviewer.run request).2

/-- The log of reviewing a request. -/
def log (reviewer : Reviewer) (request : ReviewRequest) : List LogEntry :=
  (reviewer.run request).1

/-- Review every request on its own. -/
def reviewAll (reviewer : Reviewer) (requests : List ReviewRequest) : List ReviewOutcome :=
  requests.map reviewer.review

/-- The entry that follows the review at an index, when it failed. -/
def failureEntry (index : Nat) : ReviewOutcome → List LogEntry
  | .ok _ => []
  | .error failure => [.failed index failure.line]

/-- The log of reviewing requests in order, from an index on. -/
def logFrom (reviewer : Reviewer) (index : Nat) : List ReviewRequest → List LogEntry
  | [] => []
  | request :: requests =>
    let (entries, outcome) := reviewer.run request
    entries ++ failureEntry index outcome ++ reviewer.logFrom (index + 1) requests

/-- The log of reviewing requests in order. -/
def logAll (reviewer : Reviewer) (requests : List ReviewRequest) : List LogEntry :=
  .started requests.length :: reviewer.logFrom 0 requests

end Reviewer
end PolicyReview
