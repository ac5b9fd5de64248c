import PolicyReview.Record.Constraint

/-!
# Responses of the evaluation engine

The engine answers a review with one response per target.  A response lists one result per
constraint that is not satisfied, in the order of the engine.  The table of responses is keyed by
target, and the key, not the target inside the response, decides which response is found.
-/

namespace PolicyReview

/-- One constraint that is not satisfied. -/
structure EvalResult where
  msg : String
  metadata : DynamicMap
  constraint : ConstraintRef

namespace EvalResult

/-- The fields that have been read. -/
structure Draft where
  msg : Option String
  metadata : Option DynamicMap
  constraint : Option ConstraintRef

/-- Read metadata: null stands for the empty table. -/
def readMetadata (budget : Nat) : Json.Reader DynamicMap := fun text =>
  match Json.skipSpace text with
  | 'n' :: rest => do
    let rest ← Json.expectLetters ['u', 'l', 'l'] rest
    .ok ([], rest)
  | text => Dynamic.readMap budget text

/-- How a result is read: metadata may be missing. -/
def shape : Json.Shape Draft EvalResult where
  name := "EvalResult"
  fields := [
    .string "msg" (·.msg) fun draft msg => { draft with msg := some msg },
    .at "metadata" (·.metadata) (fun draft metadata => { draft with metadata := some metadata })
      readMetadata,
    .at "constraint" (·.constraint)
      (fun draft constraint => { draft with constraint := some constraint }) ConstraintRef.read]
  blank := ⟨none, none, none⟩
  finish := fun draft =>
    match draft.msg, draft.constraint with
    | none, _ => .error "msg"
    | _, none => .error "constraint"
    | some msg, some constraint => .ok ⟨msg, draft.metadata.getD [], constraint⟩

/-- Read a result within a budget of brackets. -/
def read (budget : Nat) : Json.Reader EvalResult :=
  shape.read budget

/-- Read a whole text as a result. -/
def ofText (text : String) : Except Json.Error EvalResult :=
  shape.readText text

/-- The document of a result. -/
def document (result : EvalResult) : Except NonFinite Json.Document := do
  let metadata ← Dynamic.mapDocument result.metadata
  .ok (.object [("msg", .string result.msg), ("metadata", metadata),
    ("constraint", result.constraint.document)])

end EvalResult

/-- The results for one target. -/
structure Response where
  target : String
  /-- One entry per constraint that is not satisfied, in the order of the engine. -/
  results : List EvalResult

namespace Response

instance : Inhabited Response := ⟨⟨"", []⟩⟩

/-- The fields that have been read. -/
structure Draft where
  target : Option String
  results : Option (List EvalResult)

/-- How a response is read: the results may be missing. -/
def shape : Json.Shape Draft Response where
  name := "Response"
  fields := [
    .string "target" (·.target) fun draft target => { draft with target := some target },
    .at "results" (·.results) (fun draft results => { draft with results := some results })
      (Json.readListOf EvalResult.read)]
  blank := ⟨none, none⟩
  finish := fun draft =>
    match draft.target with
    | none => .error "target"
    | some target => .ok ⟨target, draft.results.getD []⟩

/-- Read a response within a budget of brackets. -/
def read (budget : Nat) : Json.Reader Response :=
  shape.read budget

/-- Read a whole text as a response. -/
def ofText (text : String) : Except Json.Error Response :=
  shape.readText text

/-- The document of a response. -/
def document (response : Response) : Except NonFinite Json.Document := do
  let results ← response.results.mapM EvalResult.document
  .ok (.object [("target", .string response.target), ("results", .list results)])

end Response

/-- The responses of one review, keyed by target. -/
structure Responses where
  byTarget : Entries Response

namespace Responses

/-- No responses. -/
def empty : Responses := ⟨[]⟩

instance : Inhabited Responses := ⟨empty⟩

/-- The response under a target. -/
def target? (responses : Responses) (target : String) : Option Response :=
  responses.byTarget.find? target

/-- Put a response under its own target; a response already there is replaced. -/
def insert (responses : Responses) (response : Response) : Responses :=
  ⟨responses.byTarget.insert response.target response⟩

/-- The fields that have been read. -/
structure Draft where
  byTarget : Option (Entries Response)

/-- How responses are read: the table may be missing. -/
def shape : Json.Shape Draft Responses where
  name := "Responses"
  fields := [
    .at "byTarget" (·.byTarget) (fun _ byTarget => ⟨some byTarget⟩)
      (Json.readTableOf Response.read)]
  blank := ⟨none⟩
  finish := fun draft => .ok ⟨draft.byTarget.getD []⟩

/-- Read a whole text as responses. -/
def ofText (text : String) : Except Json.Error Responses :=
  shape.readText text

/-- The document of a member of the table. -/
def entryDocument (entry : String × Response) : Except NonFinite (String × Json.Document) := do
  let document ← entry.2.document
  .ok (entry.1, document)

/-- The document of responses. -/
def document (responses : Responses) : Except NonFinite Json.Document := do
  let entries ← responses.byTarget.mapM entryDocument
  .ok (.object [("byTarget", .object entries)])

end Responses
end PolicyReview
