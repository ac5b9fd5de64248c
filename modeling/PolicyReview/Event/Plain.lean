import PolicyReview.Event.Structured
import PolicyReview.Json.Value

/-!
# Events of plain values

A plain JSON value is a data source without text: it hands over its parts one by one.  An integer is
handed over as a signed one only where it is negative, and strings, the keys of objects among them,
are handed over for good.
-/

namespace PolicyReview
namespace Event

/-- The event of a number. -/
def ofNumber : Json.Number → Event
  | .natural value => .uint value
  | .negative value _ => .int value
  | .float word _ => .float word

/-- The event of a scalar. -/
def ofScalar : Json.Scalar → Event
  | .null => .unit
  | .bool value => .bool value
  | .number value => ofNumber value
  | .string value => .ownedString value

mutual

/-- The event of a plain value. -/
def ofJson : Json.Value → Event
  | .scalar value => ofScalar value
  | .list items => .list (ofJsonItems items)
  | .object entries => .map (ofJsonEntries entries)

/-- The events of the items of a list. -/
def ofJsonItems : List Json.Value → List Event
  | [] => []
  | item :: items => ofJson item :: ofJsonItems items

/-- The events of the entries of an object, keys and values. -/
def ofJsonEntries : List (String × Json.Value) → List (Event × Event)
  | [] => []
  | (key, value) :: entries => (.ownedString key, ofJson value) :: ofJsonEntries entries

end

end Event

namespace Structured

/-- Take a structured value from a plain one. -/
def ofJson (value : Json.Value) : Except EventError Structured :=
  ofEvent (Event.ofJson value)

end Structured
end PolicyReview
