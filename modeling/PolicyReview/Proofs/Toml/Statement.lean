import PolicyReview.Toml.Document

/-!
# Documents as statements

A document says its table in statements, one after the other: a key with its value, the header of a
table, or the header of another table in an array.  To read a document is to read its statements and
then to follow them, whatever they make of the table on the way.
-/

namespace PolicyReview
namespace Toml

/-- A value under a key, at the end of a path of keys. -/
structure Assignment where
  path : List String
  key : String
  value : Value

/-- How a value is written. -/
inductive Written where
  | whole (value : Value)
  /-- As an inline table of the given fields. -/
  | inline (fields : List Assignment)

/-- A line that writes a value under a key. -/
structure Line where
  path : List String
  key : String
  written : Written

/-- What a line of a document says. -/
inductive Statement where
  | line (line : Line)
  | header (path : List String) (key : String)
  /-- The header of another table in an array. -/
  | nextHeader (path : List String) (key : String)

section Reading

/-- The fields of an inline table whose bracket was read. -/
def fields? (value : ValueReader) : Nat → List Char → Option (List Assignment × List Char)
  | 0, _ => none
  | fuel + 1, text =>
    match skipFiller text with
    | '\x7d' :: rest => some ([], rest)
    | text => do
      let ((path, key), value', rest) ← readKeyValue? skipFiller value text
      match skipFiller rest with
      | '\x7d' :: rest => some ([⟨path, key, value'⟩], rest)
      | ',' :: rest =>
        let (fields, rest) ← fields? value fuel rest
        some (⟨path, key, value'⟩ :: fields, rest)
      | _ => none

/-- A value as it is written, where `budget` more arrays and inline tables may be open inside. -/
def written? (budget : Nat) : List Char → Option (Written × List Char)
  | '\x7b' :: rest => do
    let (fields, rest) ← fields? (readValue? budget) (rest.length + 1) rest
    some (.inline fields, rest)
  | text => do
    let (value, rest) ← readValue? (budget + 1) text
    some (.whole value, rest)

/-- A line that writes a value under a key. -/
def line? (budget : Nat) (text : List Char) : Option (Line × List Char) := do
  let ((path, key), rest) ← readKeys? text
  match skipSpace rest with
  | '=' :: rest =>
    let (written, rest) ← written? budget (skipSpace rest)
    some (⟨path, key, written⟩, rest)
  | _ => none

/-- The header of a table, after its bracket. -/
def header? (text : List Char) : Option (Statement × List Char) := do
  let ((path, key), rest) ← readKeys? text
  match rest with
  | ']' :: rest => some (.header path key, rest)
  | _ => none

/-- The header of another table in an array, after its brackets. -/
def nextHeader? (text : List Char) : Option (Statement × List Char) := do
  let ((path, key), rest) ← readKeys? text
  match rest with
  | ']' :: ']' :: rest => some (.nextHeader path key, rest)
  | _ => none

/-- A statement at the front of a text. -/
def statement? : List Char → Option (Statement × List Char)
  | '[' :: '[' :: text => nextHeader? text
  | '[' :: text => header? text
  | text => do
    let (line, rest) ← line? (nestingLimit - 1) text
    some (.line line, rest)

/-- The statements of the lines of a text.  Each takes a character, so `fuel` only has to exceed the
length of the text. -/
def statementsOf? : Nat → List Char → Option (List Statement)
  | 0, _ => none
  | fuel + 1, text =>
    match skipFiller text with
    | [] => some []
    | text => do
      let (statement, rest) ← statement? text
      let rest ← finishLine? rest
      let statements ← statementsOf? fuel rest
      some (statement :: statements)

/-- The statements of a text. -/
def statements? (text : String) : Option (List Statement) :=
  let text := dropByteOrderMark text.toList
  statementsOf? (text.length + 1) text

end Reading

section Following

/-- Put the value into a table. -/
def Assignment.put (assignment : Assignment) : TableEdit :=
  putPath assignment.path assignment.key assignment.value

/-- Put all values into a table, one after the other. -/
def putAll (assignments : List Assignment) (origin : Origin) (entries : Entries Node) :
    Option (Entries Node) :=
  assignments.foldlM (fun entries assignment => assignment.put origin entries) entries

/-- The value, where the fields of an inline table have room in one table. -/
def Written.value? : Written → Option Value
  | .whole value => some value
  | .inline fields => do
    let entries ← putAll fields .header []
    some (.table (Node.finishEntries entries))

/-- The value that a line puts under its key. -/
def Line.assignment? (line : Line) : Option Assignment := do
  let value ← line.written.value?
  some ⟨line.path, line.key, value⟩

/-- Follow a line. -/
def Line.follow (draft : Draft) (line : Line) : Option Draft := do
  let assignment ← line.assignment?
  let root ← editAt false assignment.put draft.header .header draft.root
  some ⟨root, draft.header⟩

/-- Follow a statement. -/
def Statement.follow (draft : Draft) : Statement → Option Draft
  | .line written => written.follow draft
  | .header path key => do
    let root ← editAt false (openTable key) path .header draft.root
    some ⟨root, path ++ [key]⟩
  | .nextHeader path key => do
    let root ← editAt false (openNext key) path .header draft.root
    some ⟨root, path ++ [key]⟩

/-- Follow statements, one after the other. -/
def followAll (statements : List Statement) (draft : Draft) : Option Draft :=
  statements.foldlM Statement.follow draft

/-- The table that statements say. -/
def tableOf? (statements : List Statement) : Option (List (String × Value)) := do
  let draft ← followAll statements ⟨[], []⟩
  some (Node.finishEntries draft.root)

end Following

@[simp]
theorem putAll_nil (origin : Origin) (entries : Entries Node) :
    putAll [] origin entries = some entries :=
  rfl

@[simp]
theorem putAll_cons (assignment : Assignment) (assignments : List Assignment) (origin : Origin)
    (entries : Entries Node) :
    putAll (assignment :: assignments) origin entries =
      (assignment.put origin entries).bind (putAll assignments origin) :=
  rfl

@[simp]
theorem followAll_nil (draft : Draft) : followAll [] draft = some draft :=
  rfl

@[simp]
theorem followAll_cons (statement : Statement) (statements : List Statement) (draft : Draft) :
    followAll (statement :: statements) draft =
      (statement.follow draft).bind (followAll statements) :=
  rfl

theorem followAll_append (statements others : List Statement) (draft : Draft) :
    followAll (statements ++ others) draft =
      (followAll statements draft).bind (followAll others) :=
  List.foldlM_append

theorem fields?_of_closed {value : ValueReader} {fuel : Nat} {text rest : List Char}
    (closed : skipFiller text = '\x7d' :: rest) :
    fields? value (fuel + 1) text = some ([], rest) := by
  rw [fields?, closed]
  rfl

theorem fields?_of_not_closed {value : ValueReader} {fuel : Nat} {text : List Char}
    (not_closed : ∀ rest, skipFiller text = '\x7d' :: rest → False) :
    fields? value (fuel + 1) text = (do
      let ((path, key), value', rest) ← readKeyValue? skipFiller value (skipFiller text)
      match skipFiller rest with
      | '\x7d' :: rest => some ([⟨path, key, value'⟩], rest)
      | ',' :: rest =>
        let (fields, rest) ← fields? value fuel rest
        some (⟨path, key, value'⟩ :: fields, rest)
      | _ => none) := by
  rw [fields?]
  split
  · rename_i rest closed
    exact (not_closed rest closed).elim
  · rfl

/-- To read an inline table is to read its fields and to put all of them into a table. -/
theorem readFields?_eq (value : ValueReader) (fuel : Nat) (entries : Entries Node)
    (text : List Char) :
    readFields? value fuel entries text = (do
      let (fields, rest) ← fields? value fuel text
      let entries ← putAll fields .header entries
      some (entries, rest)) := by
  -- The fields behind the first are put into the table that the first one has changed.
  induction fuel generalizing entries text with
  | zero => rfl
  | succ fuel ih =>
    rw [readFields?]
    split
    · rename_i rest closed
      rw [fields?_of_closed closed]
      rfl
    · rename_i not_closed
      rw [fields?_of_not_closed not_closed]
      cases readKeyValue? skipFiller value (skipFiller text) with
      | none => rfl
      | some read =>
        obtain ⟨⟨path, key⟩, value', rest⟩ := read
        simp only [Option.bind_eq_bind, Option.bind_some]
        generalize skipFiller rest = behind
        split
        · simp [Assignment.put, Option.bind_assoc]
        · rename_i rest
          cases others_read : fields? value fuel rest <;>
            simp [ih, Assignment.put, others_read, Option.bind_assoc]
        · simp [*]

theorem readValue?_eq (budget : Nat) (text : List Char) :
    readValue? (budget + 1) text = (do
      let (written, rest) ← written? budget text
      let value ← written.value?
      some (value, rest)) := by
  unfold written?
  split
  · rw [readValue?, readValueWith?]
    simp [readFields?_eq, Written.value?, Option.bind_assoc]
  · cases readValue? (budget + 1) text <;> simp [Written.value?]

theorem readKeyValue?_eq (budget : Nat) (text : List Char) :
    readKeyValue? skipSpace (readValue? (budget + 1)) text = (do
      let (line, rest) ← line? budget text
      let assignment ← line.assignment?
      some ((assignment.path, assignment.key), assignment.value, rest)) := by
  rw [readKeyValue?, line?]
  cases readKeys? text with
  | none => rfl
  | some read =>
    obtain ⟨⟨path, key⟩, rest⟩ := read
    simp only [Option.bind_eq_bind, Option.bind_some]
    generalize skipSpace rest = visible
    split
    · simp [readValue?_eq, Line.assignment?, Option.bind_assoc]
    · simp [*]

theorem readTableHeader?_eq (draft : Draft) (text : List Char) :
    readTableHeader? draft text = (do
      let (statement, rest) ← header? text
      let draft ← statement.follow draft
      some (draft, rest)) := by
  rw [readTableHeader?, header?]
  cases readKeys? text with
  | none => rfl
  | some read =>
    simp only [Option.bind_eq_bind, Option.bind_some]
    generalize read.2 = behind
    split <;> simp [Statement.follow, Option.bind_assoc, *]

theorem readArrayHeader?_eq (draft : Draft) (text : List Char) :
    readArrayHeader? draft text = (do
      let (statement, rest) ← nextHeader? text
      let draft ← statement.follow draft
      some (draft, rest)) := by
  rw [readArrayHeader?, nextHeader?]
  cases readKeys? text with
  | none => rfl
  | some read =>
    simp only [Option.bind_eq_bind, Option.bind_some]
    generalize read.2 = behind
    split <;> simp [Statement.follow, Option.bind_assoc, *]

/-- To read an entry is to read a statement and to follow it. -/
theorem readEntry?_eq (draft : Draft) (text : List Char) :
    readEntry? draft text = (do
      let (statement, rest) ← statement? text
      let draft ← statement.follow draft
      some (draft, rest)) := by
  unfold readEntry?
  split
  · exact readArrayHeader?_eq draft _
  · rename_i notArray
    simp only [statement?, readTableHeader?_eq]
  · rename_i notArray notHeader
    have limit : nestingLimit = nestingLimit - 1 + 1 := rfl
    rw [limit, readKeyValue?_eq, statement?]
    · simp [Statement.follow, Line.follow, Assignment.put, Option.bind_assoc]
    · exact notArray
    · exact notHeader

/-- To read the lines of a document is to read their statements and to follow them all. -/
theorem readLines?_eq (fuel : Nat) (draft : Draft) (text : List Char) :
    readLines? fuel draft text = (statementsOf? fuel text).bind (followAll · draft) := by
  induction fuel generalizing draft text with
  | zero => rfl
  | succ fuel ih =>
    rw [readLines?, statementsOf?]
    generalize skipFiller text = visible
    split
    · rfl
    · rename_i something
      cases read : statement? visible with
      | none => simp [readEntry?_eq, read]
      | some first =>
        obtain ⟨statement, rest⟩ := first
        cases finished : finishLine? rest <;>
          cases followed : statement.follow draft <;>
            simp [readEntry?_eq, read, ih, finished, followed, Option.bind_assoc]

/-- To read a document is to read its statements and to say their table. -/
theorem ofText?_eq (text : String) : ofText? text = (statements? text).bind tableOf? := by
  rw [ofText?, statements?]
  simp only [readLines?_eq, Option.bind_eq_bind, Option.bind_assoc]
  rfl

end Toml
end PolicyReview
