import PolicyReview.Decimal.Layout
import PolicyReview.Text.Quoted

/-!
# TOML values

A TOML value is a scalar, an array or a table; integers fit sixty-four bits with sign.  The entries
of a table are sorted by key.  A numeral may have a proper form and no value; it stands in a
document all the same, and matters only to those who look at it.
-/

namespace PolicyReview
namespace Toml

/-- A calendar day. -/
structure Date where
  year : Nat
  month : Nat
  day : Nat
  deriving DecidableEq, Repr

/-- A time of day; seconds may be left out, and fractions of a second stay as their digits. -/
structure Time where
  hour : Nat
  minute : Nat
  second : Option Nat
  fraction : List Char
  deriving DecidableEq, Repr

/-- A date, a time, or both, where a date with a time may have an offset in minutes. -/
structure Moment where
  date : Option Date
  time : Option Time
  offset : Option Int
  deriving DecidableEq, Repr

/-- A TOML value. -/
inductive Value where
  | string (value : String)
  | integer (value : Int64)
  | float (value : Binary64)
  /-- A numeral that has no value: it is out of range, lacks digits or has letters among them. -/
  | valueless
  | boolean (value : Bool)
  | moment (value : Moment)
  | array (items : List Value)
  | table (entries : List (String × Value))

/-- The wording of a value that was found in the wrong place; dates and times count as maps. -/
def Value.describe : Value → String
  | .string value => "string " ++ Text.quoted value
  | .integer value => "integer `" ++ toString value.toInt ++ "`"
  | .float value => "floating point `" ++ value.plainText ++ "`"
  | .valueless => "number"
  | .boolean true => "boolean `true`"
  | .boolean false => "boolean `false`"
  | .moment _ => "map"
  | .array _ => "sequence"
  | .table _ => "map"

end Toml
end PolicyReview
