import PolicyReview.Json.Value

/-!
# Structured values

A structured value has the types of JSON and nothing else: every number in it is finite, and the
fields of an object are sorted by name.  Violations carry their metadata in this form.
-/

namespace PolicyReview

/-- A value with the types of JSON. -/
inductive Structured where
  | null
  | bool (value : Bool)
  | number (value : Json.Number)
  | string (value : String)
  | list (items : List Structured)
  /-- An object, its fields sorted by name. -/
  | object (fields : List (String × Structured))

namespace Structured

instance : Inhabited Structured := ⟨.null⟩

/-- The structured value of a scalar. -/
def ofScalar : Json.Scalar → Structured
  | .null => .null
  | .bool value => .bool value
  | .number value => .number value
  | .string value => .string value

/-- Structured values are built by putting the members of an object into a table. -/
def assembly : Json.Assembly Structured :=
  ⟨ofScalar, .list, fun members => .object (Entries.ofMembers members)⟩

/-- Read a value within a budget of brackets. -/
def read (budget : Nat) : Json.Reader Structured :=
  Json.readValue assembly budget

/-- Read a whole text as a value. -/
def ofText (text : String) : Except Json.Error Structured :=
  Json.readText assembly text

/-- The fields of an object. -/
def asObject? : Structured → Option (Entries Structured)
  | .object fields => some fields
  | _ => none

mutual

/-- The plain JSON value. -/
def toJson : Structured → Json.Value
  | .null => .scalar .null
  | .bool value => .scalar (.bool value)
  | .number value => .scalar (.number value)
  | .string value => .scalar (.string value)
  | .list items => .list (itemsToJson items)
  | .object fields => .object (fieldsToJson fields)

/-- The plain JSON values of the items of a list. -/
def itemsToJson : List Structured → List Json.Value
  | [] => []
  | item :: items => item.toJson :: itemsToJson items

/-- The plain JSON values of the fields of an object. -/
def fieldsToJson : List (String × Structured) → List (String × Json.Value)
  | [] => []
  | (name, value) :: fields => (name, value.toJson) :: fieldsToJson fields

end

mutual

/-- The document of a value. -/
def document : Structured → Json.Document
  | .null => .scalar .null
  | .bool value => .scalar (.bool value)
  | .number value => .scalar (.number value)
  | .string value => .string value
  | .list items => .list (itemDocuments items)
  | .object fields => .object (fieldDocuments fields)

/-- The documents of the items of a list. -/
def itemDocuments : List Structured → List Json.Document
  | [] => []
  | item :: items => item.document :: itemDocuments items

/-- The documents of the fields of an object. -/
def fieldDocuments : List (String × Structured) → List (String × Json.Document)
  | [] => []
  | (name, value) :: fields => (name, value.document) :: fieldDocuments fields

end

/-- The text of a value without blanks. -/
def text (value : Structured) : String :=
  value.document.text

mutual

/-- Equality of values: values of different constructors differ, and numbers compare by class. -/
def equal : Structured → Structured → Bool
  | .null, .null => true
  | .bool x, .bool y => x == y
  | .number x, .number y => x.equal y
  | .string x, .string y => x == y
  | .list xs, .list ys => equalItems xs ys
  | .object xs, .object ys => equalFields xs ys
  | _, _ => false

/-- Equality of lists, item by item. -/
def equalItems : List Structured → List Structured → Bool
  | [], [] => true
  | x :: xs, y :: ys => x.equal y && equalItems xs ys
  | _, _ => false

/-- Equality of objects, field by field. -/
def equalFields : List (String × Structured) → List (String × Structured) → Bool
  | [], [] => true
  | (name, x) :: xs, (other, y) :: ys => name == other && x.equal y && equalFields xs ys
  | _, _ => false

end

end Structured
end PolicyReview
