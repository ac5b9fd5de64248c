import PolicyReview.Dynamic.Basic
import PolicyReview.Json.Record
import PolicyReview.Json.Value

/-!
# JSON form of dynamic values

Reading a dynamic value keeps integers and words apart as the text spells them, but a negative zero
and integers beyond sixty-four bits are read as words.  Writing needs every word to be finite: JSON
text has no form for the others, and the first of them is the error.
-/

namespace PolicyReview

/-- A word without JSON form. -/
structure NonFinite where
  word : Binary64
  deriving DecidableEq

/-- The wording of the error for a word without JSON form. -/
def NonFinite.message (error : NonFinite) : String :=
  "unsupported value: " ++ error.word.plainText

/-- Why a plain JSON value is no table. -/
structure NotObject where
  found : String
  deriving DecidableEq, Repr

/-- The wording of the error for a value that is no table. -/
def NotObject.message (error : NotObject) : String :=
  "expected a JSON object, got " ++ error.found

namespace Dynamic

/-- The dynamic value of an unsigned integer: signed where it fits. -/
def ofUInt64 (value : UInt64) : Dynamic :=
  if value.toNat < 0x8000000000000000 then .int value.toInt64 else .uint value

/-- The dynamic value of a number. -/
def ofNumber : Json.Number → Dynamic
  | .natural value => ofUInt64 value
  | .negative value _ => .int value
  | .float value _ => .float value

/-- The dynamic value of a scalar. -/
def ofScalar : Json.Scalar → Dynamic
  | .null => .null
  | .bool value => .bool value
  | .number value => ofNumber value
  | .string value => .string value

/-- Dynamic values are built by putting the members of an object into a table. -/
def assembly : Json.Assembly Dynamic :=
  ⟨ofScalar, .list, fun members => .map (Entries.ofMembers members)⟩

/-- Read a value within a budget of brackets. -/
def read (budget : Nat) : Json.Reader Dynamic :=
  Json.readValue assembly budget

/-- Read a table within a budget of brackets. -/
def readMap (budget : Nat) : Json.Reader DynamicMap :=
  Json.readTableOf read budget

/-- Read a whole text as a value. -/
def ofText (text : String) : Except Json.Error Dynamic :=
  Json.readText assembly text

/-- Read a whole text as a table. -/
def mapOfText (text : String) : Except Json.Error DynamicMap :=
  Json.readAll (readMap Json.nestingLimit) text

mutual

/-- The dynamic value of a plain JSON value. -/
def ofJson : Json.Value → Dynamic
  | .scalar value => ofScalar value
  | .list items => .list (ofJsonItems items)
  | .object entries => .map (ofJsonEntries entries)

/-- The dynamic values of the items of a list. -/
def ofJsonItems : List Json.Value → List Dynamic
  | [] => []
  | item :: items => ofJson item :: ofJsonItems items

/-- The dynamic values of the entries of an object. -/
def ofJsonEntries : List (String × Json.Value) → List (String × Dynamic)
  | [] => []
  | (key, value) :: entries => (key, ofJson value) :: ofJsonEntries entries

end

/-- The table of dynamic values that a plain JSON value is. -/
def mapOfJson (value : Json.Value) : Except NotObject DynamicMap :=
  match ofJson value with
  | .map entries => .ok entries
  | other => .error ⟨other.typeName⟩

/-- The number of a signed integer. -/
def numberOfInt (value : Int64) : Json.Number :=
  if isNegative : value < 0 then .negative value isNegative else .natural value.toUInt64

mutual

/-- The document of a value. -/
def document : Dynamic → Except NonFinite Json.Document
  | .null => .ok (.scalar .null)
  | .bool value => .ok (.scalar (.bool value))
  | .int value => .ok (.scalar (.number (numberOfInt value)))
  | .uint value => .ok (.scalar (.number (.natural value)))
  | .float word =>
    if isFinite : word.isFinite = true then .ok (.scalar (.number (.float word isFinite)))
    else .error ⟨word⟩
  | .string value => .ok (.string value)
  | .list items => do
    let documents ← itemDocuments items
    .ok (.list documents)
  | .map entries => do
    let documents ← entryDocuments entries
    .ok (.object documents)

/-- The documents of the items of a list. -/
def itemDocuments : List Dynamic → Except NonFinite (List Json.Document)
  | [] => .ok []
  | item :: items => do
    let document ← item.document
    let documents ← itemDocuments items
    .ok (document :: documents)

/-- The documents of the entries of a table. -/
def entryDocuments : List (String × Dynamic) → Except NonFinite (List (String × Json.Document))
  | [] => .ok []
  | (key, value) :: entries => do
    let document ← value.document
    let documents ← entryDocuments entries
    .ok ((key, document) :: documents)

end

/-- The document of a table. -/
def mapDocument (entries : DynamicMap) : Except NonFinite Json.Document :=
  (Dynamic.map entries).document

/-- The canonical text of a value. -/
def text (value : Dynamic) : Except NonFinite String := do
  let document ← value.document
  .ok document.text

end Dynamic
end PolicyReview
