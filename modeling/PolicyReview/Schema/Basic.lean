import PolicyReview.Json.Document

/-!
# Schemas of records

A schema says which JSON values a record may be.  A record lists its properties; a property with a
default need not be there.  Records inside a record are defined once and referred to by name.
-/

namespace PolicyReview
namespace Schema

/-- The values of a property. -/
inductive Kind where
  /-- Any JSON value. -/
  | anything
  | string
  | list (items : Kind)
  /-- An object with any keys. -/
  | table (values : Kind)
  /-- A record that is defined under a name. -/
  | record (name : String)
  deriving DecidableEq, Repr

/-- A property of a record. -/
structure Property where
  name : String
  kind : Kind
  description : Option String := none
  /-- The value that stands for a missing property. -/
  fallback : Option Json.Document := none

/-- A record and its properties in declared order. -/
structure Record where
  name : String
  description : Option String := none
  properties : List Property

/-- A schema: a record and the records that it refers to. -/
structure Document where
  root : Record
  definitions : List Record := []

/-- The dialect that schemas are written in. -/
def dialect : String := "https://json-schema.org/draft/2020-12/schema"

/-- A member with a string. -/
def textMember (key value : String) : String × Json.Document :=
  (key, .string value)

/-- A member with a description, if there is one. -/
def descriptionMember (description : Option String) : List (String × Json.Document) :=
  (description.map (textMember "description")).toList

namespace Kind

mutual

/-- The document of a kind; any value is allowed by `true`. -/
def document : Kind → Json.Document
  | .anything => .scalar (.bool true)
  | kind => .object kind.members

/-- The members that restrict a value to a kind. -/
def members : Kind → List (String × Json.Document)
  | .anything => []
  | .string => [textMember "type" "string"]
  | .list items => [textMember "type" "array", ("items", items.document)]
  | .table values => [textMember "type" "object", ("additionalProperties", values.document)]
  | .record name => [textMember "$ref" ("#/$defs/" ++ name)]

end

end Kind

namespace Property

/-- The property must be there. -/
def isRequired (property : Property) : Bool :=
  property.fallback.isNone

/-- What is noted at a property beside its kind. -/
def notes (property : Property) : List (String × Json.Document) :=
  descriptionMember property.description ++
    (property.fallback.map fun value => ("default", value)).toList

/-- The member for a property. -/
def member (property : Property) : String × Json.Document :=
  (property.name,
    if property.notes.isEmpty then property.kind.document
    else .object (property.kind.members ++ property.notes))

end Property

namespace Record

/-- The names of the properties that must be there. -/
def required (record : Record) : List String :=
  (record.properties.filter Property.isRequired).map (·.name)

/-- The member that lists the required properties, if there are any. -/
def requiredMember (record : Record) : List (String × Json.Document) :=
  if record.required.isEmpty then [] else [("required", .list (record.required.map .string))]

/-- The members that describe a record. -/
def members (record : Record) : List (String × Json.Document) :=
  descriptionMember record.description ++ [textMember "type" "object",
    ("properties", .object (record.properties.map Property.member))] ++ record.requiredMember

/-- The member that defines a record. -/
def definition (record : Record) : String × Json.Document :=
  (record.name, .object record.members)

end Record

namespace Document

/-- The member that holds the definitions, if there are any. -/
def definitionsMember (schema : Document) : List (String × Json.Document) :=
  if schema.definitions.isEmpty then []
  else [("$defs", .object (schema.definitions.map Record.definition))]

/-- The document of a schema. -/
def document (schema : Document) : Json.Document :=
  .object ([textMember "$schema" dialect, textMember "title" schema.root.name] ++
    schema.root.members ++ schema.definitionsMember)

end Document

end Schema
end PolicyReview
