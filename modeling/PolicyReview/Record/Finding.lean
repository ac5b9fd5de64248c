import PolicyReview.Dynamic.Json
import PolicyReview.Structured.Basic

/-!
# Findings

A violated constraint is reported twice: as a violation, with its metadata as a structured value,
and as an insight, whose content holds the resource and the metadata as dynamic values.
-/

namespace PolicyReview

/-- A violation of a constraint by a resource. -/
structure Violation where
  /-- Name of the violated constraint. -/
  constraint : String
  /-- Name of the reviewed resource. -/
  resource : String
  message : String
  metadata : Structured

namespace Violation

/-- The fields that have been read. -/
structure Draft where
  constraint : Option String
  resource : Option String
  message : Option String
  metadata : Option Structured

/-- How a violation is read. -/
def shape : Json.Shape Draft Violation where
  name := "Violation"
  fields := [
    .string "constraint" (·.constraint) fun draft name => { draft with constraint := some name },
    .string "resource" (·.resource) fun draft name => { draft with resource := some name },
    .string "message" (·.message) fun draft message => { draft with message := some message },
    .at "metadata" (·.metadata) (fun draft metadata => { draft with metadata := some metadata })
      Structured.read]
  blank := ⟨none, none, none, none⟩
  finish := fun draft =>
    match draft.constraint, draft.resource, draft.message, draft.metadata with
    | none, _, _, _ => .error "constraint"
    | _, none, _, _ => .error "resource"
    | _, _, none, _ => .error "message"
    | _, _, _, none => .error "metadata"
    | some constraint, some resource, some message, some metadata =>
      .ok ⟨constraint, resource, message, metadata⟩

/-- Read a whole text as a violation. -/
def ofText (text : String) : Except Json.Error Violation :=
  shape.readText text

/-- The document of a violation. -/
def document (violation : Violation) : Json.Document :=
  .object [("constraint", .string violation.constraint), ("resource", .string violation.resource),
    ("message", .string violation.message), ("metadata", violation.metadata.document)]

/-- Write a violation.  Writing records may fail, but no number of structured metadata is without
JSON form. -/
def write (violation : Violation) : Except NonFinite String :=
  .ok violation.document.text

end Violation

/-- A finding for the owner of a resource. -/
structure Insight where
  description : String
  /-- Names of the resources concerned. -/
  targetResources : List String
  subtype : String
  /-- The resource and the metadata of the violation, under two keys. -/
  content : DynamicMap
  category : String

namespace Insight

/-- The fields that have been read. -/
structure Draft where
  description : Option String
  targetResources : Option (List String)
  subtype : Option String
  content : Option DynamicMap
  category : Option String

/-- How an insight is read. -/
def shape : Json.Shape Draft Insight where
  name := "Insight"
  fields := [
    .string "description" (·.description) fun draft text => { draft with description := some text },
    .at "targetResources" (·.targetResources)
      (fun draft names => { draft with targetResources := some names })
      (Json.readListOf fun _ => Json.readStringValue),
    .string "insightSubtype" (·.subtype) fun draft name => { draft with subtype := some name },
    .at "content" (·.content) (fun draft content => { draft with content := some content })
      Dynamic.readMap,
    .string "category" (·.category) fun draft name => { draft with category := some name }]
  blank := ⟨none, none, none, none, none⟩
  finish := fun draft =>
    match draft.description, draft.targetResources, draft.subtype, draft.content,
      draft.category with
    | none, _, _, _, _ => .error "description"
    | _, none, _, _, _ => .error "targetResources"
    | _, _, none, _, _ => .error "insightSubtype"
    | _, _, _, none, _ => .error "content"
    | _, _, _, _, none => .error "category"
    | some description, some targetResources, some subtype, some content, some category =>
      .ok ⟨description, targetResources, subtype, content, category⟩

/-- Read a whole text as an insight. -/
def ofText (text : String) : Except Json.Error Insight :=
  shape.readText text

/-- The document of an insight. -/
def document (insight : Insight) : Except NonFinite Json.Document := do
  let content ← Dynamic.mapDocument insight.content
  .ok (.object [("description", .string insight.description),
    ("targetResources", .list (insight.targetResources.map .string)),
    ("insightSubtype", .string insight.subtype), ("content", content),
    ("category", .string insight.category)])

end Insight
end PolicyReview
