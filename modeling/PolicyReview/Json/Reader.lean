import PolicyReview.Json.Scalar

/-!
# Reading values

Values are read from the front of a text by readers, which give back what follows the value.  One
reader serves every type of value: an assembly says how the type is built from its parts.  A reader
has a budget of brackets that it may open inside one another; a bracket beyond the budget is an
error at that bracket.
-/

namespace PolicyReview
namespace Json

/-- A reader takes a value from the front of a text. -/
abbrev Reader (α : Type) := List Char → Except Error (α × List Char)

/-- The number of brackets that may be open at once. -/
def nestingLimit : Nat := 127

/-- Where a list or an object goes on. -/
inductive Next where
  /-- The closing bracket was read. -/
  | closed (rest : List Char)
  /-- Another entry follows. -/
  | entry (rest : List Char)

/-- Go to the next item of a list, over the comma unless the item is the first. -/
def nextItem (first : Bool) (text : List Char) : Except Error Next :=
  match skipSpace text with
  | [] => .error (.endOfText .list)
  | c :: text =>
    if c = ']' then .ok (.closed text)
    else if first then .ok (.entry (c :: text))
    else if c = ',' then
      match skipSpace text with
      | [] => .error (.endOfText .value)
      | ']' :: _ => .error .trailingComma
      | text => .ok (.entry text)
    else .error .expectedCommaOrBracket

/-- The opening quote of a key; `atEnd` is the error where the text is over. -/
def keyQuote (atEnd : Error) : List Char → Except Error Next
  | [] => .error atEnd
  | c :: text => if c = '"' then .ok (.entry text) else .error .keyNotString

/-- Go to the next member of an object, over the comma unless the member is the first, and over the
opening quote of its key. -/
def nextMember (first : Bool) (text : List Char) : Except Error Next :=
  match skipSpace text with
  | [] => .error (.endOfText .object)
  | c :: text =>
    if c = '\x7d' then .ok (.closed text)
    else if first then keyQuote (.endOfText .value) (c :: text)
    else if c = ',' then
      match skipSpace text with
      | '\x7d' :: _ => .error .trailingComma
      | text => keyQuote (.endOfText .value) text
    else .error .expectedCommaOrBrace

/-- Go over the colon between a key and its value. -/
def afterColon (text : List Char) : Except Error (List Char) :=
  match skipSpace text with
  | [] => .error (.endOfText .object)
  | c :: text => if c = ':' then .ok text else .error .expectedColon

/-- The items of a list whose opening bracket was read.  Every item takes a character, so `fuel`
only has to exceed the length of the text. -/
def readItems {α : Type} (item : Reader α) : Nat → Bool → Reader (List α)
  | 0, _, _ => .error (.endOfText .list)
  | fuel + 1, first, text => do
    match ← nextItem first text with
    | .closed rest => .ok ([], rest)
    | .entry rest =>
      let (value, rest) ← item rest
      let (values, rest) ← readItems item fuel false rest
      .ok (value :: values, rest)

/-- The members of an object whose opening bracket was read.  Each key is handed over with the text
that follows it, and `member` reads the colon and the value. -/
def readMembers {σ : Type} (member : σ → String → Reader σ) : Nat → Bool → σ → Reader σ
  | 0, _, _, _ => .error (.endOfText .object)
  | fuel + 1, first, state, text => do
    match ← nextMember first text with
    | .closed rest => .ok (state, rest)
    | .entry rest =>
      let (key, rest) ← readString rest
      let (state, rest) ← member state key rest
      readMembers member fuel false state rest

/-- How a type of values is built from its parts. -/
structure Assembly (α : Type) where
  scalar : Scalar → α
  list : List α → α
  /-- The members come in the order of the text, repeated keys included. -/
  object : List (String × α) → α

/-- Read the value of a member and put it in front of the members read before. -/
def readMember {α : Type} (value : Reader α) (members : List (String × α)) (key : String) :
    Reader (List (String × α)) := fun text => do
  let text ← afterColon text
  let (value, rest) ← value text
  .ok ((key, value) :: members, rest)

/-- Open a bracket: the readers of what stands inside need one more level of the budget. -/
def openBracket {α : Type} (nested : Option (Reader α)) (text : List Char) :
    Except Error (Reader α) :=
  match nested with
  | some reader => .ok reader
  | none => .error (.tooDeep (byteLength text))

/-- Read one value whose parts are read by `nested`, if there may be parts. -/
def readValueWith {α : Type} (build : Assembly α) (nested : Option (Reader α)) : Reader α :=
  fun text =>
    match skipSpace text with
    | '[' :: rest => do
      let value ← openBracket nested ('[' :: rest)
      let (items, rest) ← readItems value (rest.length + 1) true rest
      .ok (build.list items, rest)
    | '\x7b' :: rest => do
      let value ← openBracket nested ('\x7b' :: rest)
      let (members, rest) ← readMembers (readMember value) (rest.length + 1) true [] rest
      .ok (build.object members.reverse, rest)
    | text => do
      let (scalar, rest) ← Scalar.read text
      .ok (build.scalar scalar, rest)

/-- Read one value in which at most `budget` brackets are open at once. -/
def readValue {α : Type} (build : Assembly α) : Nat → Reader α
  | 0 => readValueWith build none
  | budget + 1 => readValueWith build (some (readValue build budget))

/-- Read a whole text; only blanks may follow. -/
def readAll {α : Type} (reader : Reader α) (text : String) : Except Error α := do
  let (value, rest) ← reader text.toList
  if (skipSpace rest).isEmpty then .ok value else .error .trailingCharacters

/-- Read a whole text as one value. -/
def readText {α : Type} (build : Assembly α) (text : String) : Except Error α :=
  readAll (readValue build nestingLimit) text

end Json
end PolicyReview
