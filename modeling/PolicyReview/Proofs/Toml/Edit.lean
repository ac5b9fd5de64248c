import PolicyReview.Proofs.Entries
import PolicyReview.Toml.Table

/-!
# Edits in any order

An edit at a path changes what stands under the first key of the path and nothing else.  Edits at
one path, made one after the other, are one edit at that path; so edits that may change places still
may behind a path.  Values are put under keys in any order: either order gives the same table, or no
order gives one.
-/

namespace PolicyReview
namespace Toml

theorem finishEntries_eq_map (entries : Entries Node) :
    Node.finishEntries entries = entries.map (Prod.map id Node.finish) := by
  induction entries with
  | nil => rfl
  | cons entry entries ih =>
    rw [Node.finishEntries, ih]
    rfl

/-- One edit and then another. -/
def TableEdit.andThen (edit next : TableEdit) : TableEdit := fun origin entries =>
  (edit origin entries).bind (next origin)

/-- Two edits that may change places. -/
def Commute (edit other : TableEdit) : Prop :=
  edit.andThen other = other.andThen edit

theorem Commute.symm {edit other : TableEdit} (commute : Commute edit other) :
    Commute other edit :=
  Eq.symm commute

theorem Commute.bind_comm {edit other : TableEdit} (commute : Commute edit other)
    (origin : Origin) (entries : Entries Node) :
    (edit origin entries).bind (other origin) = (other origin entries).bind (edit origin) :=
  congrFun (congrFun commute origin) entries

/-- What becomes of what stands under a key when the table there is entered and edited. -/
def enter (dotted : Bool) (edit : TableEdit) : Option Node → Option Node
  | none => do
    let origin : Origin := if dotted then .dotted else .implied
    let entries ← edit origin []
    some (.table origin entries)
  | some (.table origin entries) => do
    let origin ← origin.entered? dotted
    let entries ← edit origin entries
    some (.table origin entries)
  | some (.tables items) => do
    let last ← items.getLast?
    let last ← edit .header last
    some (.tables (items.dropLast ++ [last]))
  | some (.closed _) => none

/-- What becomes of what stands under a key when a value is put there: the key must be new. -/
def place (value : Value) : Option Node → Option Node
  | none => some (.closed value)
  | some _ => none

@[simp]
theorem editAt_nil (dotted : Bool) (edit : TableEdit) : editAt dotted edit [] = edit :=
  rfl

theorem editAt_cons (dotted : Bool) (edit : TableEdit) (key : String) (path : List String)
    (origin : Origin) (entries : Entries Node) :
    editAt dotted edit (key :: path) origin entries =
      entries.change? key (enter dotted (editAt dotted edit path)) := by
  rw [editAt, Entries.change?]
  rcases entries.find? key with _ | _ | ⟨origin, inner⟩ | items
  case none => simp [enter, Option.bind_assoc]
  case some.closed => rfl
  case some.table => simp [enter, Option.bind_assoc]
  case some.tables => cases found : items.getLast? <;> simp [enter, found, Option.bind_assoc]

theorem putNew_eq_change? (key : String) (value : Value) (origin : Origin)
    (entries : Entries Node) :
    putNew key value origin entries = entries.change? key (place value) := by
  rw [putNew, Entries.change?]
  cases entries.find? key <;> rfl

theorem entered?_of_entered {dotted : Bool} {origin entered : Origin}
    (enters : origin.entered? dotted = some entered) :
    entered.entered? dotted = some entered := by
  cases dotted <;> cases origin <;> cases enters <;> rfl

/-- Two edits of a table that is entered are one edit of it. -/
theorem enter_andThen (dotted : Bool) (edit next : TableEdit) (found : Option Node) :
    ((enter dotted edit found).bind fun node => enter dotted next (some node)) =
      enter dotted (edit.andThen next) found := by
  -- The second edit enters what the first one has entered already: that does not change its origin.
  rcases found with _ | _ | ⟨origin, entries⟩ | items
  case none =>
    cases dotted <;> simp [enter, TableEdit.andThen, Option.bind_assoc, Origin.entered?]
  case some.closed => rfl
  case some.table =>
    cases enters : origin.entered? dotted with
    | none => simp [enter, enters]
    | some entered =>
      simp [enter, TableEdit.andThen, Option.bind_assoc, enters, entered?_of_entered enters]
  case some.tables =>
    cases found : items.getLast? <;> simp [enter, TableEdit.andThen, found, Option.bind_assoc]

/-- Two edits at one path are one edit there. -/
theorem editAt_andThen (dotted : Bool) (edit next : TableEdit) (path : List String) :
    (editAt dotted edit path).andThen (editAt dotted next path) =
      editAt dotted (edit.andThen next) path := by
  induction path with
  | nil => rfl
  | cons key path ih =>
    funext origin entries
    rw [TableEdit.andThen, editAt_cons, editAt_cons, funext (editAt_cons _ next _ _ _),
      Entries.change?_bind_change?, ← ih]
    simp only [enter_andThen]

/-- Edits that may change places still may behind a path. -/
theorem Commute.editAt {edit other : TableEdit} (commute : Commute edit other) (dotted : Bool)
    (path : List String) : Commute (editAt dotted edit path) (editAt dotted other path) := by
  rw [Commute, editAt_andThen, editAt_andThen, commute]

/-- Edits at paths that part with their first keys may change places. -/
theorem commute_editAt_of_ne {key other : String} (differ : key ≠ other) (dotted : Bool)
    (edit otherEdit : TableEdit) (path otherPath : List String) :
    Commute (editAt dotted edit (key :: path)) (editAt dotted otherEdit (other :: otherPath)) := by
  funext origin entries
  simp only [TableEdit.andThen, funext (editAt_cons _ _ _ _ _)]
  exact Entries.change?_comm differ _ _ entries

/-- One key cannot hold two values. -/
theorem commute_putNew (key other : String) (value otherValue : Value) :
    Commute (putNew key value) (putNew other otherValue) := by
  funext origin entries
  simp only [TableEdit.andThen, funext (putNew_eq_change? _ _ _)]
  by_cases same : key = other
  · subst same
    rw [Entries.change?_bind_change?, Entries.change?_bind_change?]
    congr
    funext found
    cases found <;> rfl
  · exact Entries.change?_comm same _ _ entries

/-- One key cannot both hold a value and lead to others. -/
theorem commute_putNew_editAt (key other : String) (value : Value) (dotted : Bool)
    (edit : TableEdit) (path : List String) :
    Commute (putNew key value) (editAt dotted edit (other :: path)) := by
  funext origin entries
  simp only [TableEdit.andThen, funext (putNew_eq_change? _ _ _), funext (editAt_cons _ _ _ _ _)]
  by_cases same : key = other
  · subst same
    rw [Entries.change?_bind_change?, Entries.change?_bind_change?]
    congr
    funext found
    cases found <;> simp [place, enter]
  · exact Entries.change?_comm same _ _ entries

theorem Commute.toDotted {key : String} {value : Value} {edit : TableEdit}
    (commute : Commute (putNew key value) edit) : Commute (putDotted key value) edit := by
  funext origin entries
  by_cases dotted : origin = .dotted
  · have same : putDotted key value origin = putNew key value origin :=
      funext fun _ => if_pos dotted
    simpa only [TableEdit.andThen, same] using commute.bind_comm origin entries
  · have refused : putDotted key value origin = fun _ => none := funext fun _ => if_neg dotted
    simp [TableEdit.andThen, refused]

theorem commute_editAt_putDotted (path otherPath : List String) (key other : String)
    (value otherValue : Value) :
    Commute (editAt true (putDotted key value) path)
      (editAt true (putDotted other otherValue) otherPath) := by
  induction path generalizing otherPath with
  | nil =>
    cases otherPath with
    | nil => exact (commute_putNew key other value otherValue).toDotted.symm.toDotted.symm
    | cons first rest => exact (commute_putNew_editAt key first value true _ rest).toDotted
  | cons first rest ih =>
    cases otherPath with
    | nil => exact (commute_putNew_editAt other first otherValue true _ rest).toDotted.symm
    | cons otherFirst otherRest =>
      by_cases same : first = otherFirst
      · subst same
        exact (ih otherRest).editAt true [first]
      · exact commute_editAt_of_ne same true _ _ rest otherRest

/-- Values are put under paths in any order. -/
theorem commute_putPath (path otherPath : List String) (key other : String)
    (value otherValue : Value) :
    Commute (putPath path key value) (putPath otherPath other otherValue) := by
  cases path with
  | nil =>
    cases otherPath with
    | nil => exact commute_putNew key other value otherValue
    | cons first rest => exact commute_putNew_editAt key first value true _ rest
  | cons first rest =>
    cases otherPath with
    | nil => exact (commute_putNew_editAt other first otherValue true _ rest).symm
    | cons otherFirst otherRest =>
      exact commute_editAt_putDotted (first :: rest) (otherFirst :: otherRest) key other value
        otherValue

end Toml
end PolicyReview
