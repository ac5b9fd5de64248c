import PolicyReview.Decimal.Layout
import PolicyReview.Text.Quoted

/-!
# Events of a data source

A self-describing data source hands over a value as a tree of events.  Not every event has a place
in every type of value; one that has none is an error that says what was found and what expected.
-/

namespace PolicyReview

/-- What a data source hands over. -/
inductive Event where
  | unit
  | none
  | some (content : Event)
  | wrapped (content : Event)
  | bool (value : Bool)
  | int (value : Int64)
  | uint (value : UInt64)
  /-- A signed integer of 128 bits. -/
  | wideInt (value : Int)
  /-- An unsigned integer of 128 bits. -/
  | wideUInt (value : Nat)
  | float (value : Binary64)
  | char (value : Char)
  | string (value : String)
  /-- A string that is handed over for good. -/
  | ownedString (value : String)
  | bytes (value : List UInt8)
  | list (items : List Event)
  | map (entries : List (Event × Event))

/-- Why an event cannot be taken over. -/
inductive EventError where
  | wrongType (found expected : String)
  /-- A byte array is no text. -/
  | notText
  /-- A word without JSON form. -/
  | nonFinite (word : Binary64)
  deriving DecidableEq

/-- The wording of an event error. -/
def EventError.message : EventError → String
  | .wrongType found expected => "invalid type: " ++ found ++ ", expected " ++ expected
  | .notText => "invalid value: byte array, expected a string"
  | .nonFinite word => "number " ++ word.plainText ++ " has no JSON representation"

namespace Event

instance : Inhabited Event := ⟨.unit⟩

/-- The wording of an event that was found in the wrong place. -/
def describe : Event → String
  | .unit => "unit value"
  | .none => "Option value"
  | .some _ => "Option value"
  | .wrapped _ => "newtype struct"
  | .bool true => "boolean `true`"
  | .bool false => "boolean `false`"
  | .int value => "integer `" ++ toString value.toInt ++ "`"
  | .uint value => "integer `" ++ toString value.toNat ++ "`"
  | .wideInt value => "integer `" ++ toString value ++ "` as i128"
  | .wideUInt value => "integer `" ++ toString value ++ "` as u128"
  | .float value => "floating point `" ++ value.plainText ++ "`"
  | .char value => "character `" ++ String.singleton value ++ "`"
  | .string value => "string " ++ Text.quoted value
  | .ownedString value => "string " ++ Text.quoted value
  | .bytes _ => "byte array"
  | .list _ => "sequence"
  | .map _ => "map"

/-- The text of a byte array in UTF-8. -/
def textOfBytes? (bytes : List UInt8) : Option String :=
  String.fromUTF8? ⟨bytes.toArray⟩

/-- The key that an event stands for. -/
def key : Event → Except EventError String
  | .char value => .ok (String.singleton value)
  | .string value => .ok value
  | .ownedString value => .ok value
  | .bytes value =>
    match textOfBytes? value with
    | Option.some text => .ok text
    | Option.none => .error .notText
  | event => .error (.wrongType event.describe "a string")

end Event
end PolicyReview
