import PolicyReview.Dynamic.Json
import PolicyReview.Event.Basic

/-!
# Dynamic values from events

A dynamic value takes over every event that JSON text could stand for; integers of 128
bits, wrapped values and byte arrays have no place in it.
-/

namespace PolicyReview
namespace Dynamic

/-- The error for an event that no dynamic value stands for. -/
def misplaced (event : Event) : EventError :=
  .wrongType event.describe "any JSON-like value"

mutual

/-- The dynamic value of an event. -/
def ofEvent : Event → Except EventError Dynamic
  | .unit => .ok .null
  | .none => .ok .null
  | .some content => ofEvent content
  | .bool value => .ok (.bool value)
  | .int value => .ok (.int value)
  | .uint value => .ok (ofUInt64 value)
  | .float value => .ok (.float value)
  | .char value => .ok (.string (String.singleton value))
  | .string value => .ok (.string value)
  | .ownedString value => .ok (.string value)
  | .list items => do
    let values ← ofEvents items
    .ok (.list values)
  | .map entries => do
    let members ← ofEventEntries entries
    .ok (.map (Entries.ofMembers members))
  | .wrapped content => .error (misplaced (.wrapped content))
  | .wideInt value => .error (misplaced (.wideInt value))
  | .wideUInt value => .error (misplaced (.wideUInt value))
  | .bytes value => .error (misplaced (.bytes value))

/-- The dynamic values of a sequence of events. -/
def ofEvents : List Event → Except EventError (List Dynamic)
  | [] => .ok []
  | item :: items => do
    let value ← ofEvent item
    let values ← ofEvents items
    .ok (value :: values)

/-- The members of a map of events, each key before its value. -/
def ofEventEntries : List (Event × Event) → Except EventError (List (String × Dynamic))
  | [] => .ok []
  | (key, content) :: entries => do
    let key ← key.key
    let value ← ofEvent content
    let members ← ofEventEntries entries
    .ok ((key, value) :: members)

end

end Dynamic
end PolicyReview
