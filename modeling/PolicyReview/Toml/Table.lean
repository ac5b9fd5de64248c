import PolicyReview.Entries
import PolicyReview.Toml.Value

/-!
# Tables under construction

A document builds its tables line by line.  How a table came about decides what may still be added:
a header defines a table once, dotted keys lead through tables without a header of their own, and a
value that was written out is closed.
-/

namespace PolicyReview
namespace Toml

/-- How a table came about. -/
inductive Origin where
  /-- A header names the table. -/
  | header
  /-- A header names a table inside it. -/
  | implied
  /-- A dotted key leads through it, and no header names it. -/
  | dotted
  deriving DecidableEq, Repr

/-- What stands under a key while a document is read. -/
inductive Node where
  /-- A value that was written out. -/
  | closed (value : Value)
  | table (origin : Origin) (entries : List (String × Node))
  /-- Tables under a header of their own each; the last one is open. -/
  | tables (items : List (List (String × Node)))

namespace Node

mutual

/-- The finished value. -/
def finish : Node → Value
  | .closed value => value
  | .table _ entries => .table (finishEntries entries)
  | .tables items => .array (finishTables items)

/-- The finished entries of a table. -/
def finishEntries : List (String × Node) → List (String × Value)
  | [] => []
  | (key, node) :: entries => (key, node.finish) :: finishEntries entries

/-- The finished tables of an array. -/
def finishTables : List (List (String × Node)) → List Value
  | [] => []
  | entries :: items => .table (finishEntries entries) :: finishTables items

end

end Node

/-- What an operation does to a table of known origin; nothing if the table does not admit it. -/
abbrev TableEdit := Origin → Entries Node → Option (Entries Node)

/-- The origin of a table once a path has led through it, where the path may do so: dotted keys do
not enter a table with a header, and a table that they enter counts as their own. -/
def Origin.entered? (dotted : Bool) (origin : Origin) : Option Origin :=
  if dotted then
    if origin = .header then none else some .dotted
  else some origin

/-- Apply an edit to the table that a path leads to.  Tables on the way are made where they are
missing; of tables in an array the last one is entered. -/
def editAt (dotted : Bool) (edit : TableEdit) : List String → TableEdit
  | [], origin, entries => edit origin entries
  | key :: path, _, entries =>
    match entries.find? key with
    | none => do
      let origin : Origin := if dotted then .dotted else .implied
      let inner ← editAt dotted edit path origin []
      some (entries.insert key (.table origin inner))
    | some (.table origin inner) => do
      let origin ← origin.entered? dotted
      let inner ← editAt dotted edit path origin inner
      some (entries.insert key (.table origin inner))
    | some (.tables items) =>
      match items.getLast? with
      | none => none
      | some last => do
        let last ← editAt dotted edit path .header last
        some (entries.insert key (.tables (items.dropLast ++ [last])))
    | some (.closed _) => none

/-- Put a value under a key that is new. -/
def putNew (key : String) (value : Value) : TableEdit := fun _ entries =>
  if (entries.find? key).isSome then none else some (entries.insert key (.closed value))

/-- Put a value under a new key of a table that belongs to dotted keys. -/
def putDotted (key : String) (value : Value) : TableEdit := fun origin entries =>
  if origin = .dotted then putNew key value origin entries else none

/-- Put a value under a path of keys. -/
def putPath (path : List String) (key : String) (value : Value) : TableEdit :=
  match path with
  | [] => putNew key value
  | path => editAt true (putDotted key value) path

/-- Open the table of a header: it is new, or a header inside it came first. -/
def openTable (key : String) : TableEdit := fun _ entries =>
  match entries.find? key with
  | none => some (entries.insert key (.table .header []))
  | some (.table .implied inner) => some (entries.insert key (.table .header inner))
  | some _ => none

/-- Open another table of an array of tables. -/
def openNext (key : String) : TableEdit := fun _ entries =>
  match entries.find? key with
  | none => some (entries.insert key (.tables [[]]))
  | some (.tables items) => some (entries.insert key (.tables (items ++ [[]])))
  | some _ => none

end Toml
end PolicyReview
