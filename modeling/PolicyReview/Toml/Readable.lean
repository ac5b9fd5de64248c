import PolicyReview.Toml.Moment

/-!
# Readable values

A value is readable as a whole when every numeral in it has a value.  A table whose first key is
the key of moments stands for a date or time, and is readable when that key holds the text of one;
its other entries are not looked at.
-/

namespace PolicyReview
namespace Toml

/-- The one key of a date or time that is looked at as a table. -/
def momentKey : String := "$__toml_private_datetime"

namespace Value

/-- The value is the text of a date or time. -/
def spellsMoment : Value → Bool
  | .string text => (moment? text.toList).isSome
  | _ => false

mutual

/-- Every numeral in the value has a value, and every table that stands for a moment spells one. -/
def isReadable : Value → Bool
  | .valueless => false
  | .array items => itemsReadable items
  | .table [] => true
  | .table ((key, value) :: entries) =>
    if key = momentKey then value.spellsMoment else value.isReadable && entriesReadable entries
  | _ => true

/-- Every item is readable. -/
def itemsReadable : List Value → Bool
  | [] => true
  | item :: items => item.isReadable && itemsReadable items

/-- Every entry is readable. -/
def entriesReadable : List (String × Value) → Bool
  | [] => true
  | (_, value) :: entries => value.isReadable && entriesReadable entries

end

end Value
end Toml
end PolicyReview
