import PolicyReview.Dynamic.Json
import PolicyReview.Structured.Encoding

/-!
# Errors of a review

A review fails as a whole: an error stands in place of the result, never beside a part of it.
-/

namespace PolicyReview

/-- The place of a violation in a result. -/
structure ViolationPlace where
  resource : String
  constraint : String
  /-- Position among the violations, from zero. -/
  index : Nat
  deriving DecidableEq, Repr

/-- Why a review fails. -/
inductive ReviewError where
  /-- The responses have none for the target. -/
  | notFound (target : String)
  /-- The resource lacks its name. -/
  | missingField (target field : String)
  /-- The name of the resource is no string. -/
  | typeMismatch (target field found : String)
  /-- The metadata of a violation has no text. -/
  | serialization (place : ViolationPlace) (source : NonFinite)
  /-- The text of a violation's metadata cannot be read back. -/
  | encoding (place : ViolationPlace) (text : String) (source : Json.Error)
  deriving DecidableEq

namespace ViolationPlace

/-- The wording of a place. -/
def message (place : ViolationPlace) : String :=
  "violation " ++ toString place.index ++ " ('" ++ place.constraint ++ "') on '" ++
    place.resource ++ "'"

end ViolationPlace

namespace ReviewError

/-- The wording of the error underneath, where there is one. -/
def source? : ReviewError → Option String
  | .serialization _ source => some source.message
  | .encoding _ text source => some (source.messageIn text)
  | _ => none

/-- The wording of an error. -/
def message : ReviewError → String
  | .notFound target => "no response for target '" ++ target ++ "'"
  | .missingField target field =>
    "resource reviewed for target '" ++ target ++ "' is missing field '" ++ field ++ "'"
  | .typeMismatch target field found =>
    "resource field '" ++ field ++ "' is " ++ found ++ ", expected a string (target '" ++
      target ++ "')"
  | .serialization place source =>
    "failed to marshal metadata of " ++ place.message ++ " to json: " ++ source.message
  | .encoding place text source =>
    "failed to decode json of " ++ place.message ++ " into a structured value: " ++
      source.messageIn text

/-- The wordings of an error and of the error underneath, outermost first. -/
def chain (error : ReviewError) : List String :=
  error.message :: error.source?.toList

end ReviewError
end PolicyReview
