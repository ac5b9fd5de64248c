import PolicyReview.Dynamic.Json
import PolicyReview.Structured.Basic

/-!
# Encoding metadata

Dynamic metadata is written to its canonical text and that text is read back as a structured value,
so the structured value has exactly the types that the text shows.
-/

namespace PolicyReview

/-- Why metadata has no structured value. -/
inductive EncodeError where
  /-- The metadata has no text. -/
  | write (error : NonFinite)
  /-- The text of the metadata cannot be read back. -/
  | read (text : String) (error : Json.Error)
  deriving DecidableEq

namespace Structured

/-- The structured value of metadata. -/
def encodeMetadata (metadata : DynamicMap) : Except EncodeError Structured :=
  match (Dynamic.map metadata).text with
  | .error error => .error (.write error)
  | .ok text =>
    match ofText text with
    | .error error => .error (.read text error)
    | .ok value => .ok value

end Structured
end PolicyReview
