import PolicyReview.Entries
import PolicyReview.Json.Document

/-!
# Plain JSON values

A plain JSON value keeps the entries of its objects sorted, so the order in which members were
spelled is forgotten and of repeated keys the last one stays.
-/

namespace PolicyReview
namespace Json

/-- A plain JSON value. -/
inductive Value where
  | scalar (value : Scalar)
  | list (items : List Value)
  | object (entries : List (String × Value))

namespace Value

/-- Plain values are built by putting the members of an object into a table. -/
def assembly : Assembly Value :=
  ⟨.scalar, .list, fun members => .object (Entries.ofMembers members)⟩

/-- Read a text as a plain value. -/
def ofText (text : String) : Except Error Value :=
  readText assembly text

mutual

/-- The document of a plain value. -/
def document : Value → Document
  | .scalar value => .scalar value
  | .list items => .list (itemDocuments items)
  | .object entries => .object (entryDocuments entries)

/-- The documents of the items of a list. -/
def itemDocuments : List Value → List Document
  | [] => []
  | item :: items => item.document :: itemDocuments items

/-- The documents of the entries of an object. -/
def entryDocuments : List (String × Value) → List (String × Document)
  | [] => []
  | (key, value) :: entries => (key, value.document) :: entryDocuments entries

end

/-- The text of a plain value without blanks. -/
def text (value : Value) : String :=
  value.document.text

end Value
end Json
end PolicyReview
