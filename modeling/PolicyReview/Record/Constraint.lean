import PolicyReview.Dynamic.Json

/-!
# Constraint references

A constraint is named by its API version, its kind and its name.  A reference is written flat and
read from the flat form or from a constraint object, which keeps the name in its metadata; a value
with a metadata key is always a constraint object.
-/

namespace PolicyReview

/-- The identity of a constraint. -/
structure ConstraintRef where
  apiVersion : String
  kind : String
  name : String
  deriving DecidableEq, Repr

namespace ConstraintRef

/-- A reference without API version. -/
def ofKind (kind name : String) : ConstraintRef :=
  ⟨"", kind, name⟩

/-- The string under a key, or the empty string. -/
def textAt (value : Dynamic) (key : String) : String :=
  ((value.get? key).bind Dynamic.asString?).getD ""

/-- A reference with the given name; version and kind are taken where they are strings. -/
def named (value : Dynamic) (name : String) : ConstraintRef :=
  ⟨textAt value "apiVersion", textAt value "kind", name⟩

/-- The reference of a constraint object. -/
def ofObject (value : Dynamic) : Except FieldError ConstraintRef := do
  let name ← value.getPathString ["metadata", "name"]
  .ok (named value name)

/-- The reference of a value of either form. -/
def ofDynamic (value : Dynamic) : Except FieldError ConstraintRef :=
  if (value.get? "metadata").isSome then ofObject value
  else do
    let name ← value.getPathString ["name"]
    .ok (named value name)

/-- Read a reference within a budget of brackets: any value is read first. -/
def read (budget : Nat) : Json.Reader ConstraintRef := fun text => do
  let (value, rest) ← Dynamic.read budget text
  match ofDynamic value with
  | .ok reference => .ok (reference, rest)
  | .error error => .error (.misfit (.refused error.message))

/-- Read a whole text as a reference. -/
def ofText (text : String) : Except Json.Error ConstraintRef :=
  Json.readAll (read Json.nestingLimit) text

/-- The document of a reference. -/
def document (reference : ConstraintRef) : Json.Document :=
  .object [("apiVersion", .string reference.apiVersion), ("kind", .string reference.kind),
    ("name", .string reference.name)]

end ConstraintRef
end PolicyReview
