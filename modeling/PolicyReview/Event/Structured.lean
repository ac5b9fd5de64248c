import PolicyReview.Event.Basic
import PolicyReview.Structured.Basic

/-!
# Structured values from events

A structured value takes over the events that stand for JSON values; a word must be finite.
-/

namespace PolicyReview
namespace Structured

/-- The error for an event that no structured value stands for. -/
def misplaced (event : Event) : EventError :=
  .wrongType event.describe "a JSON value"

/-- The number of a signed integer. -/
def ofInt64 (value : Int64) : Structured :=
  if isNegative : value < 0 then .number (.negative value isNegative)
  else .number (.natural value.toUInt64)

/-- The number of a finite word. -/
def ofWord (word : Binary64) : Except EventError Structured :=
  if isFinite : word.isFinite = true then .ok (.number (.float word isFinite))
  else .error (.nonFinite word)

mutual

/-- The structured value of an event. -/
def ofEvent : Event → Except EventError Structured
  | .unit => .ok .null
  | .none => .ok .null
  | .some content => ofEvent content
  | .bool value => .ok (.bool value)
  | .int value => .ok (ofInt64 value)
  | .uint value => .ok (.number (.natural value))
  | .float value => ofWord value
  | .char value => .ok (.string (String.singleton value))
  | .string value => .ok (.string value)
  | .ownedString value => .ok (.string value)
  | .list items => do
    let values ← ofEvents items
    .ok (.list values)
  | .map entries => do
    let members ← ofEventEntries entries
    .ok (.object (Entries.ofMembers members))
  | .wrapped content => .error (misplaced (.wrapped content))
  | .wideInt value => .error (misplaced (.wideInt value))
  | .wideUInt value => .error (misplaced (.wideUInt value))
  | .bytes value => .error (misplaced (.bytes value))

/-- The structured values of a sequence of events. -/
def ofEvents : List Event → Except EventError (List Structured)
  | [] => .ok []
  | item :: items => do
    let value ← ofEvent item
    let values ← ofEvents items
    .ok (value :: values)

/-- The fields of a map of events, each name before its value. -/
def ofEventEntries : List (Event × Event) → Except EventError (List (String × Structured))
  | [] => .ok []
  | (name, content) :: entries => do
    let name ← name.key
    let value ← ofEvent content
    let fields ← ofEventEntries entries
    .ok ((name, value) :: fields)

end

end Structured
end PolicyReview
