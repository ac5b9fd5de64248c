import PolicyReview.Record.Finding

/-!
# Rendering findings

Violations are written one to a line, which would fail at the first that cannot be written.
Insights are written as one list over several lines, which fails at the first word without JSON
form.
-/

namespace PolicyReview

/-- Why there are no lines of violations: one of them cannot be written. -/
structure LineError where
  /-- Position among the violations, from zero. -/
  index : Nat
  constraint : String
  source : NonFinite
  deriving DecidableEq

/-- The wordings of a failed rendering of violations, outermost first. -/
def LineError.chain (error : LineError) : List String :=
  ["serialize violation " ++ toString error.index ++ " ('" ++ error.constraint ++ "')",
    error.source.message]

/-- The lines of the violations from a position on, each as it is written; the first that cannot be
written is the error. -/
def linesFrom (write : Violation → Except NonFinite String) (index : Nat) :
    List Violation → Except LineError String
  | [] => .ok ""
  | violation :: violations => do
    let line ← (write violation).mapError (LineError.mk index violation.constraint)
    let rest ← linesFrom write (index + 1) violations
    .ok (line ++ "\n" ++ rest)

/-- The text with one violation to a line. -/
def violationLines (violations : List Violation) : Except LineError String :=
  linesFrom Violation.write 0 violations

/-- The document of a list of insights. -/
def insightsDocument (insights : List Insight) : Except NonFinite Json.Document := do
  let documents ← insights.mapM Insight.document
  .ok (.list documents)

/-- The text of a list of insights, one part to a line. -/
def insightsText (insights : List Insight) : Except NonFinite String := do
  let document ← insightsDocument insights
  .ok (document.prettyText ++ "\n")

/-- The wordings of a failed rendering of insights, outermost first. -/
def insightsFailure (error : NonFinite) : List String :=
  ["serialize insights", error.message]

end PolicyReview
