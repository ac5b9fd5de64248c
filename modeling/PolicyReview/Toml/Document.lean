import PolicyReview.Toml.Scalar
import PolicyReview.Toml.Table

/-!
# TOML documents

A document is a sequence of lines, each blank, a header, or a key with its value.  Keys after a
header belong to its table.  A text either is a document, and then stands for one table, or is not.
-/

namespace PolicyReview
namespace Toml

/-- A character of a key without quotes. -/
def isBareKeyChar (c : Char) : Bool :=
  c.isAlphanum || c == '_' || c == '-'

/-- One key at the front of a text. -/
def readKey? (text : List Char) : Option (String × List Char) :=
  match text with
  | '"' :: _ => readLineString? text
  | '\'' :: _ => readLineString? text
  | text =>
    let key := text.takeWhile isBareKeyChar
    if key.isEmpty then none else some (String.ofList key, text.dropWhile isBareKeyChar)

/-- A path of at most `most` keys with points between them: all keys but the last, and the last. -/
def readPath? (most : Nat) (text : List Char) : Option ((List String × String) × List Char) :=
  match most with
  | 0 => none
  | more + 1 => do
    let (key, rest) ← readKey? (skipSpace text)
    match skipSpace rest with
    | '.' :: rest =>
      let ((path, last), rest) ← readPath? more rest
      some ((key :: path, last), rest)
    | rest => some (([], key), rest)

/-- The number of keys that a path may have. -/
def pathLimit : Nat := 80

/-- A path of keys at the front of a text. -/
def readKeys? (text : List Char) : Option ((List String × String) × List Char) :=
  readPath? pathLimit text

/-- A reader of values, where there is one. -/
abbrev ValueReader := List Char → Option (Value × List Char)

/-- The items of an array whose bracket was read.  Each item takes a character, so `fuel` only has
to exceed the length of the text. -/
def readItems? (value : ValueReader) : Nat → List Char → Option (List Value × List Char)
  | 0, _ => none
  | fuel + 1, text =>
    match skipFiller text with
    | ']' :: rest => some ([], rest)
    | text => do
      let (item, rest) ← value text
      match skipFiller rest with
      | ']' :: rest => some ([item], rest)
      | ',' :: rest =>
        let (items, rest) ← readItems? value fuel rest
        some (item :: items, rest)
      | _ => none

/-- A path of keys, the equals sign and the value; `skip` drops what may stand around the sign. -/
def readKeyValue? (skip : List Char → List Char) (value : ValueReader) (text : List Char) :
    Option ((List String × String) × Value × List Char) := do
  let (keys, rest) ← readKeys? text
  match skip rest with
  | '=' :: rest =>
    let (value, rest) ← value (skip rest)
    some (keys, value, rest)
  | _ => none

/-- The entries of an inline table whose bracket was read, put into a table; they may spread over
several lines.  Each entry takes a character, so `fuel` only has to exceed the length of the
text. -/
def readFields? (value : ValueReader) :
    Nat → Entries Node → List Char → Option (Entries Node × List Char)
  | 0, _, _ => none
  | fuel + 1, entries, text =>
    match skipFiller text with
    | '\x7d' :: rest => some (entries, rest)
    | text => do
      let ((path, key), value', rest) ← readKeyValue? skipFiller value text
      let entries ← putPath path key value' .header entries
      match skipFiller rest with
      | '\x7d' :: rest => some (entries, rest)
      | ',' :: rest => readFields? value fuel entries rest
      | _ => none

/-- A value whose parts are read by `nested`, if there may be parts. -/
def readValueWith? (nested : Option ValueReader) (text : List Char) : Option (Value × List Char) :=
  match text with
  | '[' :: rest => do
    let value ← nested
    let (items, rest) ← readItems? value (rest.length + 1) rest
    some (.array items, rest)
  | '\x7b' :: rest => do
    let value ← nested
    let (entries, rest) ← readFields? value (rest.length + 1) [] rest
    some (.table (Node.finishEntries entries), rest)
  | text => readScalar? text

/-- A value in which at most `budget` arrays and inline tables are open at once. -/
def readValue? : Nat → ValueReader
  | 0 => readValueWith? none
  | budget + 1 => readValueWith? (some (readValue? budget))

/-- The number of arrays and inline tables that may be open at once. -/
def nestingLimit : Nat := 80

/-- A document while it is read: its table and the path of the header that is open. -/
structure Draft where
  root : Entries Node
  header : List String

/-- The header of a table, after its bracket. -/
def readTableHeader? (draft : Draft) (text : List Char) : Option (Draft × List Char) := do
  let ((path, key), rest) ← readKeys? text
  match rest with
  | ']' :: rest =>
    let root ← editAt false (openTable key) path .header draft.root
    some (⟨root, path ++ [key]⟩, rest)
  | _ => none

/-- The header of a table in an array of tables, after its brackets. -/
def readArrayHeader? (draft : Draft) (text : List Char) : Option (Draft × List Char) := do
  let ((path, key), rest) ← readKeys? text
  match rest with
  | ']' :: ']' :: rest =>
    let root ← editAt false (openNext key) path .header draft.root
    some (⟨root, path ++ [key]⟩, rest)
  | _ => none

/-- A header or a key with its value. -/
def readEntry? (draft : Draft) : List Char → Option (Draft × List Char)
  | '[' :: '[' :: text => readArrayHeader? draft text
  | '[' :: text => readTableHeader? draft text
  | text => do
    let ((path, key), value, rest) ← readKeyValue? skipSpace (readValue? nestingLimit) text
    let root ← editAt false (putPath path key value) draft.header .header draft.root
    some (⟨root, draft.header⟩, rest)

/-- The lines of a document.  Each entry takes a character, so `fuel` only has to exceed the length
of the text. -/
def readLines? : Nat → Draft → List Char → Option Draft
  | 0, _, _ => none
  | fuel + 1, draft, text =>
    match skipFiller text with
    | [] => some draft
    | text => do
      let (draft, rest) ← readEntry? draft text
      let rest ← finishLine? rest
      readLines? fuel draft rest

/-- Drop a mark of the byte order at the front. -/
def dropByteOrderMark : List Char → List Char
  | '\ufeff' :: text => text
  | text => text

/-- The table that a text stands for; numerals in it may have no value. -/
def ofText? (text : String) : Option (List (String × Value)) := do
  let text := dropByteOrderMark text.toList
  let draft ← readLines? (text.length + 1) ⟨[], []⟩ text
  some (Node.finishEntries draft.root)

end Toml
end PolicyReview
