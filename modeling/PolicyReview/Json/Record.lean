import PolicyReview.Entries
import PolicyReview.Json.Skip

/-!
# Reading records

A record is read from an object, whose members may come in any order and may include members that
the record does not know, or from a list that holds the fields in their declared order.  The values
of the fields are gathered in a draft; when the bracket closes, the draft is finished or names the
first field that it lacks.
-/

namespace PolicyReview
namespace Json

/-- The error for a value of the wrong type.  A scalar is read first, and may fail itself. -/
def wrongType {α : Type} (expected : String) (text : List Char) : Except Error α :=
  match skipSpace text with
  | '[' :: _ => .error (.misfit (.wrongType "sequence" expected))
  | '\x7b' :: _ => .error (.misfit (.wrongType "map" expected))
  | text =>
    match Scalar.read text with
    | .error error => .error error
    | .ok (scalar, _) => .error (.misfit (.wrongType scalar.describe expected))

/-- Read a string. -/
def readStringValue : Reader String := fun text =>
  match skipSpace text with
  | '"' :: rest => readString rest
  | text => wrongType "a string" text

/-- Spend one level of a budget on a bracket. -/
def spend (budget : Nat) (text : List Char) : Except Error Nat :=
  match budget with
  | 0 => .error (.tooDeep (byteLength text))
  | inner + 1 => .ok inner

/-- Read a list of values that are read within the remaining budget. -/
def readListOf {α : Type} (item : Nat → Reader α) (budget : Nat) : Reader (List α) := fun text =>
  match skipSpace text with
  | '[' :: rest => do
    let inner ← spend budget ('[' :: rest)
    readItems (item inner) (rest.length + 1) true rest
  | text => wrongType "a sequence" text

/-- Read the value of an entry and put it into the table. -/
def readEntry {α : Type} (value : Reader α) (entries : Entries α) (key : String) :
    Reader (Entries α) := fun text => do
  let text ← afterColon text
  let (value, rest) ← value text
  .ok (entries.insert key value, rest)

/-- Read a table from strings to values that are read within the remaining budget. -/
def readTableOf {α : Type} (value : Nat → Reader α) (budget : Nat) : Reader (Entries α) :=
  fun text =>
    match skipSpace text with
    | '\x7b' :: rest => do
      let inner ← spend budget ('\x7b' :: rest)
      readMembers (readEntry (value inner)) (rest.length + 1) true [] rest
    | text => wrongType "a map" text

/-- A field of a record, as far as reading goes. -/
structure Field (σ : Type) where
  name : String
  /-- The draft holds a value for the field. -/
  isSet : σ → Bool
  /-- Read the value into the draft within a budget. -/
  read : Nat → σ → Reader σ

/-- A field whose value is read by a reader and kept in a place of the draft. -/
def Field.at {σ β : Type} (name : String) (get : σ → Option β) (set : σ → β → σ)
    (value : Nat → Reader β) : Field σ where
  name := name
  isSet draft := (get draft).isSome
  read budget draft text := do
    let (value, rest) ← value budget text
    .ok (set draft value, rest)

/-- A field that holds a string. -/
def Field.string {σ : Type} (name : String) (get : σ → Option String) (set : σ → String → σ) :
    Field σ :=
  .at name get set fun _ => readStringValue

/-- How a record is read. -/
structure Shape (σ α : Type) where
  /-- The name of the record in errors. -/
  name : String
  /-- The fields in declared order. -/
  fields : List (Field σ)
  /-- The draft before anything is read. -/
  blank : σ
  /-- The finished record, or the name of the first field that is missing. -/
  finish : σ → Except String α

namespace Shape

variable {σ α : Type}

/-- What is expected in place of a value that is no record at all. -/
def expected (shape : Shape σ α) : String :=
  "struct " ++ shape.name

/-- What is expected in place of a list that is too short. -/
def expectedLength (shape : Shape σ α) : String :=
  shape.expected ++ " with " ++ toString shape.fields.length ++
    if shape.fields.length = 1 then " element" else " elements"

/-- Read one member of an object: a repeated field is refused before its value, and an unknown
member is skipped. -/
def readField (shape : Shape σ α) (budget : Nat) (draft : σ) (key : String) : Reader σ :=
  fun text =>
    match shape.fields.find? (·.name == key) with
    | some field =>
      if field.isSet draft then .error (.misfit (.duplicateField key))
      else do
        let text ← afterColon text
        field.read budget draft text
    | none => do
      let text ← afterColon text
      let rest ← skipValue text
      .ok (draft, rest)

/-- The closing bracket of a list whose fields were all read. -/
def closeList (text : List Char) : Except Error (List Char) :=
  match skipSpace text with
  | [] => .error (.endOfText .list)
  | c :: text =>
    if c = ']' then .ok text
    else if c = ',' then
      match skipSpace text with
      | ']' :: _ => .error .trailingComma
      | _ => .error .trailingCharacters
    else .error .trailingCharacters

/-- Read the fields in order until the list closes. -/
def readInOrder (budget : Nat) : List (Field σ) → Bool → σ → Reader σ
  | [], _, draft, text => do
    let rest ← closeList text
    .ok (draft, rest)
  | field :: fields, first, draft, text => do
    match ← nextItem first text with
    | .closed rest => .ok (draft, rest)
    | .entry rest =>
      let (draft, rest) ← field.read budget draft rest
      readInOrder budget fields false draft rest

/-- Finish a draft; `missing` is the error for a field that it lacks. -/
def finishDraft (shape : Shape σ α) (missing : String → Misfit) (draft : σ) : Except Error α :=
  match shape.finish draft with
  | .ok value => .ok value
  | .error name => .error (.misfit (missing name))

/-- The error for a list that ends before a field. -/
def shortList (shape : Shape σ α) (name : String) : Misfit :=
  .shortList (shape.fields.findIdx (·.name == name)) shape.expectedLength

/-- Read a record within a budget. -/
def read (shape : Shape σ α) (budget : Nat) : Reader α := fun text =>
  match skipSpace text with
  | '[' :: rest => do
    let inner ← spend budget ('[' :: rest)
    let (draft, rest) ← readInOrder inner shape.fields true shape.blank rest
    let value ← shape.finishDraft shape.shortList draft
    .ok (value, rest)
  | '\x7b' :: rest => do
    let inner ← spend budget ('\x7b' :: rest)
    let (draft, rest) ←
      readMembers (shape.readField inner) (rest.length + 1) true shape.blank rest
    let value ← shape.finishDraft .missingField draft
    .ok (value, rest)
  | text => wrongType shape.expected text

end Shape

/-- Read a whole text as one record. -/
def Shape.readText {σ α : Type} (shape : Shape σ α) (text : String) : Except Error α :=
  readAll (shape.read nestingLimit) text

end Json
end PolicyReview
