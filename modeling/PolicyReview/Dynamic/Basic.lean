import PolicyReview.Decimal.Binary64
import PolicyReview.Entries

/-!
# Dynamic values

Resources and metadata have no fixed shape; they are held as dynamic values.  A dynamic value keeps
signed and unsigned integers and floating-point words apart, and a word may be infinite or no
number.  Typed access answers with an error that names what is missing or of the wrong type.
-/

namespace PolicyReview

/-- A value without fixed shape. -/
inductive Dynamic where
  | null
  | bool (value : Bool)
  /-- A signed integer. -/
  | int (value : Int64)
  /-- An unsigned integer; values read from a source use it only above the signed range. -/
  | uint (value : UInt64)
  | float (value : Binary64)
  | string (value : String)
  | list (items : List Dynamic)
  /-- A table, its entries sorted by key. -/
  | map (entries : List (String × Dynamic))

/-- A table of dynamic values. -/
abbrev DynamicMap := Entries Dynamic

/-- Why a string cannot be read from a place of a dynamic value. -/
inductive FieldError where
  /-- The place does not exist. -/
  | missing (field : String)
  /-- The place holds a value of another type. -/
  | notString (field found : String)
  deriving DecidableEq, Repr

/-- The wording of a field error. -/
def FieldError.message : FieldError → String
  | .missing field => "missing field '" ++ field ++ "'"
  | .notString field found => "field '" ++ field ++ "' is " ++ found ++ ", expected a string"

namespace Dynamic

instance : Inhabited Dynamic := ⟨.null⟩

/-- The name of the type of a value. -/
def typeName : Dynamic → String
  | .null => "null"
  | .bool _ => "a boolean"
  | .int _ => "an integer"
  | .uint _ => "an integer"
  | .float _ => "a float"
  | .string _ => "a string"
  | .list _ => "a list"
  | .map _ => "a map"

/-- The string that a value is. -/
def asString? : Dynamic → Option String
  | .string value => some value
  | _ => none

/-- The table that a value is. -/
def asMap? : Dynamic → Option DynamicMap
  | .map entries => some entries
  | _ => none

/-- The value under a key, when the value is a table that has the key. -/
def get? (value : Dynamic) (key : String) : Option Dynamic :=
  value.asMap?.bind fun entries => Entries.find? entries key

/-- The value reached by following keys through nested tables. -/
def getPath? : Dynamic → List String → Option Dynamic
  | value, [] => some value
  | value, key :: keys => (value.get? key).bind fun next => next.getPath? keys

/-- The string reached by following keys; errors name the keys joined by dots. -/
def getPathString (value : Dynamic) (path : List String) : Except FieldError String :=
  let field := ".".intercalate path
  match value.getPath? path with
  | none => .error (.missing field)
  | some found =>
    match found.asString? with
    | some text => .ok text
    | none => .error (.notString field found.typeName)

/-- The string under a key of a table. -/
def getString (entries : DynamicMap) (field : String) : Except FieldError String :=
  match Entries.find? entries field with
  | none => .error (.missing field)
  | some (.string text) => .ok text
  | some found => .error (.notString field found.typeName)

mutual

/-- Equality of values: values of different constructors differ, and words compare numerically. -/
def equal : Dynamic → Dynamic → Bool
  | .null, .null => true
  | .bool x, .bool y => x == y
  | .int x, .int y => x == y
  | .uint x, .uint y => x == y
  | .float x, .float y => x.equal y
  | .string x, .string y => x == y
  | .list xs, .list ys => equalItems xs ys
  | .map xs, .map ys => equalEntries xs ys
  | _, _ => false

/-- Equality of lists, item by item. -/
def equalItems : List Dynamic → List Dynamic → Bool
  | [], [] => true
  | x :: xs, y :: ys => x.equal y && equalItems xs ys
  | _, _ => false

/-- Equality of tables, entry by entry. -/
def equalEntries : List (String × Dynamic) → List (String × Dynamic) → Bool
  | [], [] => true
  | (key, x) :: xs, (other, y) :: ys => key == other && x.equal y && equalEntries xs ys
  | _, _ => false

end

mutual

/-- The depth of a scalar is zero; a list or a table is one level deeper than its parts. -/
def depth : Dynamic → Nat
  | .list items => itemsDepth items + 1
  | .map entries => entriesDepth entries + 1
  | _ => 0

/-- The largest depth of an item. -/
def itemsDepth : List Dynamic → Nat
  | [] => 0
  | item :: items => max item.depth (itemsDepth items)

/-- The largest depth of an entry. -/
def entriesDepth : List (String × Dynamic) → Nat
  | [] => 0
  | (_, value) :: entries => max value.depth (entriesDepth entries)

end

mutual

/-- The first word in a value that is not finite, in order of list positions and sorted keys. -/
def firstNonFinite? : Dynamic → Option Binary64
  | .float word => if word.isFinite then none else some word
  | .list items => itemsNonFinite? items
  | .map entries => entriesNonFinite? entries
  | _ => none

/-- The first such word in the items of a list. -/
def itemsNonFinite? : List Dynamic → Option Binary64
  | [] => none
  | item :: items => item.firstNonFinite?.or (itemsNonFinite? items)

/-- The first such word in the entries of a table. -/
def entriesNonFinite? : List (String × Dynamic) → Option Binary64
  | [] => none
  | (_, value) :: entries => value.firstNonFinite?.or (entriesNonFinite? entries)

end

end Dynamic
end PolicyReview
