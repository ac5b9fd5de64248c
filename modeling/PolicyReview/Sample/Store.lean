import PolicyReview.Review.Reviewer
import PolicyReview.Sample.Tree

/-!
# Reading sample cases

Samples are read by their path: a case and a file in it.  A path that leads to no file cannot be
read, and the text of a file may not fit what is read from it.
-/

namespace PolicyReview
namespace Sample

/-- Why a sample cannot be read. -/
inductive Failure where
  /-- No file is there. -/
  | unreadable
  /-- The text of the file does not fit. -/
  | unfit (error : Json.Error)
  deriving DecidableEq, Repr

/-- The text of the file that a path leads to. -/
def textAt? (path : String) : Option String :=
  (documentAt? path).map Json.Document.prettyText

/-- Read a sample. -/
def readAt {α : Type} (ofText : String → Except Json.Error α) (path : String) :
    Except Failure α :=
  match textAt? path with
  | none => .error .unreadable
  | some text =>
    match ofText text with
    | .ok value => .ok value
    | .error error => .error (.unfit error)

/-- A sample case. -/
structure Case where
  /-- The resource as inventoried. -/
  resource : DynamicMap
  /-- The resource as submitted for review, where it differs. -/
  reviewed : Option DynamicMap
  responses : Responses

/-- Read the resource as submitted for review, if the case has one. -/
def readReviewed (path : String) : Except Failure (Option DynamicMap) :=
  if (textAt? path).isSome then do
    let reviewed ← readAt Dynamic.mapOfText path
    .ok (some reviewed)
  else .ok none

/-- Read a sample case. -/
def load (name : String) : Except Failure Case := do
  let resource ← readAt Dynamic.mapOfText (name ++ "/cai.json")
  let reviewed ← readReviewed (name ++ "/review.json")
  let responses ← readAt Responses.ofText (name ++ "/responses.json")
  .ok ⟨resource, reviewed, responses⟩

/-- The request to review a sample case for a target. -/
def Case.request (sample : Case) (target : String) : ReviewRequest :=
  ⟨target, sample.resource, sample.reviewed, sample.responses⟩

end Sample
end PolicyReview
