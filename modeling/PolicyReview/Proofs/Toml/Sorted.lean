import PolicyReview.Proofs.Toml.Edit
import PolicyReview.Toml.Document
import Mathlib.Data.List.Infix

/-!
# Tables of documents are sorted

Every table in the value of a document is sorted by key, whatever the order of its lines: scalars
hold no tables, inline tables and the table of the document come about by edits, and edits keep all
tables sorted.
-/

namespace PolicyReview
namespace Toml

/-- The value has no parts. -/
def Value.IsScalar : Value → Prop
  | .array _ => False
  | .table _ => False
  | _ => True

/-- Every table in the value is sorted by key. -/
inductive Value.Sorted : Value → Prop where
  | scalar {value : Value} (scalar : value.IsScalar) : value.Sorted
  | array {items : List Value} (items_sorted : ∀ item ∈ items, item.Sorted) : (array items).Sorted
  | table {entries : List (String × Value)} (ordered : Entries.Ordered entries)
    (values_sorted : ∀ entry ∈ entries, entry.2.Sorted) : (table entries).Sorted

section Scalar

theorem isScalar_integerValue (value : Int) : (integerValue value).IsScalar := by
  unfold integerValue
  split <;> trivial

theorem isScalar_basedValue (base : Nat) (digits : List Char) :
    (basedValue base digits).IsScalar := by
  unfold basedValue
  generalize (digitsValue base digits : Int) = value
  split
  · trivial
  · exact isScalar_integerValue value

theorem isScalar_decimalValue (sign : Sign) (digits : List Char) :
    (decimalValue sign digits).IsScalar := by
  unfold decimalValue
  split
  · exact isScalar_integerValue _
  · trivial

theorem isScalar_floatValue (sign : Sign) (whole fraction : List Char) (exponent : Int) :
    (floatValue sign whole fraction exponent).IsScalar := by
  unfold floatValue
  split <;> trivial

variable {value : Value}

theorem isScalar_of_finiteFloat? {sign : Sign} {body : List Char}
    (read : finiteFloat? sign body = some value) : value.IsScalar := by
  unfold finiteFloat? at read
  split at read
  · obtain ⟨⟨whole, _⟩, _, read⟩ := Option.bind_eq_some_iff.mp read
    obtain ⟨⟨fraction, _⟩, _, read⟩ := Option.bind_eq_some_iff.mp read
    obtain ⟨exponent, _, read⟩ := Option.bind_eq_some_iff.mp read
    split at read
    · cases read
    · cases read
      exact isScalar_floatValue sign whole fraction exponent
  · cases read

theorem isScalar_of_basedInteger? {base : Nat} {sign : Sign} {body : List Char}
    (read : basedInteger? base sign body = some value) : value.IsScalar := by
  unfold basedInteger? at read
  split at read
  · cases read
    exact isScalar_basedValue _ _
  · cases read

theorem isScalar_of_decimalInteger? {sign : Sign} {body : List Char}
    (read : decimalInteger? sign body = some value) : value.IsScalar := by
  unfold decimalInteger? at read
  split at read
  · cases read
    exact isScalar_decimalValue _ _
  · cases read

theorem isScalar_of_numeral? {sign : Sign} {body : List Char}
    (read : numeral? sign body = some value) : value.IsScalar := by
  unfold numeral? at read
  split at read
  · exact isScalar_of_basedInteger? read
  · exact isScalar_of_basedInteger? read
  · exact isScalar_of_basedInteger? read
  · dsimp only at read
    split at read
    · exact isScalar_of_finiteFloat? read
    · split at read
      · exact isScalar_of_decimalInteger? read
      · cases read

theorem isScalar_of_number? {sign : Sign} {body : List Char}
    (read : number? sign body = some value) : value.IsScalar := by
  unfold number? at read
  split at read
  · cases read
    trivial
  · split at read
    · cases read
      trivial
    · exact isScalar_of_numeral? read

theorem isScalar_of_scalarOfRun? {run : List Char} (read : scalarOfRun? run = some value) :
    value.IsScalar := by
  rcases Option.or_eq_some_iff.mp read with boolean | ⟨_, read⟩
  · unfold boolean? at boolean
    split at boolean
    · cases boolean
      trivial
    · split at boolean <;> cases boolean
      trivial
  · rcases Option.or_eq_some_iff.mp read with moment | ⟨_, number⟩
    · obtain ⟨moment, _, rfl⟩ := Option.map_eq_some_iff.mp moment
      trivial
    · exact isScalar_of_number? number

theorem isScalar_of_readScalar? {text rest : List Char}
    (read : readScalar? text = some (value, rest)) : value.IsScalar := by
  unfold readScalar? at read
  split at read
  · obtain ⟨_, _, read⟩ := Option.map_eq_some_iff.mp read
    cases read
    trivial
  · obtain ⟨_, _, read⟩ := Option.map_eq_some_iff.mp read
    cases read
    trivial
  · obtain ⟨_, scalar, read⟩ := Option.map_eq_some_iff.mp read
    cases read
    exact isScalar_of_scalarOfRun? scalar

end Scalar

/-- All tables in what stands under a key are sorted. -/
inductive Node.Sorted : Node → Prop where
  | closed {value : Value} (value_sorted : value.Sorted) : (closed value).Sorted
  | table {origin : Origin} {entries : List (String × Node)} (ordered : Entries.Ordered entries)
    (nodes_sorted : ∀ entry ∈ entries, entry.2.Sorted) : (table origin entries).Sorted
  | tables {items : List (List (String × Node))}
    (items_ordered : ∀ entries ∈ items, Entries.Ordered entries)
    (nodes_sorted : ∀ entries ∈ items, ∀ entry ∈ entries, entry.2.Sorted) : (tables items).Sorted

/-- A table under construction is sorted, and so are all tables in it. -/
structure SortedEntries (entries : Entries Node) : Prop where
  ordered : entries.Ordered
  nodes_sorted : ∀ entry ∈ entries, entry.2.Sorted

section Edits

theorem SortedEntries.nil : SortedEntries [] :=
  ⟨List.Pairwise.nil, List.forall_mem_nil _⟩

variable {entries : Entries Node} {key : String} {node : Node}

theorem SortedEntries.insert (sorted : SortedEntries entries) (key : String)
    (node_sorted : node.Sorted) : SortedEntries (Entries.insert entries key node) where
  ordered := sorted.ordered.insert key node
  nodes_sorted := by
    intro entry entry_mem
    rcases Entries.mem_insert entry_mem with rfl | old
    · exact node_sorted
    · exact sorted.nodes_sorted entry old

theorem SortedEntries.of_find? (sorted : SortedEntries entries)
    (found : entries.find? key = some node) : node.Sorted :=
  sorted.nodes_sorted _ (Entries.mem_of_find?_eq_some found)

theorem sorted_table_iff {origin : Origin} :
    (Node.table origin entries).Sorted ↔ SortedEntries entries := by
  constructor
  · rintro (_ | ⟨ordered, nodes_sorted⟩ | _)
    exact ⟨ordered, nodes_sorted⟩
  · exact fun sorted => .table sorted.ordered sorted.nodes_sorted

theorem sorted_tables_iff {items : List (Entries Node)} :
    (Node.tables items).Sorted ↔ ∀ entries ∈ items, SortedEntries entries := by
  constructor
  · rintro (_ | _ | ⟨items_ordered, nodes_sorted⟩) entries entries_mem
    exact ⟨items_ordered entries entries_mem, nodes_sorted entries entries_mem⟩
  · intro items_sorted
    exact .tables (fun entries entries_mem => (items_sorted entries entries_mem).ordered)
      fun entries entries_mem => (items_sorted entries entries_mem).nodes_sorted

theorem sorted_tables_concat {items : List (Entries Node)}
    (items_sorted : ∀ entries ∈ items, SortedEntries entries) (sorted : SortedEntries entries) :
    (Node.tables (items ++ [entries])).Sorted := by
  apply sorted_tables_iff.mpr
  intro item item_mem
  rcases List.mem_append.mp item_mem with before | at_last
  · exact items_sorted item before
  · cases List.mem_singleton.mp at_last
    exact sorted

/-- The edit leaves all tables sorted. -/
def Keeps (edit : TableEdit) : Prop :=
  ∀ origin entries edited, SortedEntries entries → edit origin entries = some edited →
    SortedEntries edited

/-- An edit under one key keeps tables sorted if it makes something sorted of what is there. -/
theorem keeps_change? {change : Option Node → Option Node}
    (changes : ∀ found changed, (∀ node, found = some node → node.Sorted) →
      change found = some changed → changed.Sorted) :
    Keeps fun _ entries => entries.change? key change := by
  intro _ entries edited sorted edits
  obtain ⟨changed, change_eq, edits⟩ := Option.bind_eq_some_iff.mp edits
  cases edits
  exact sorted.insert key (changes _ _ (fun node found => sorted.of_find? found) change_eq)

theorem Keeps.editAt {edit : TableEdit} (keeps : Keeps edit) (dotted : Bool)
    (path : List String) : Keeps (editAt dotted edit path) := by
  induction path with
  | nil => exact keeps
  | cons key path ih =>
    simp only [funext fun origin => funext (editAt_cons dotted edit key path origin)]
    apply keeps_change?
    -- What stands under the key is new, closed, a table, or tables of which the last is entered.
    rintro (_ | _ | ⟨origin, entries⟩ | items) changed found_sorted enters
    case none =>
      obtain ⟨edited, edits, enters⟩ := Option.bind_eq_some_iff.mp enters
      cases enters
      exact sorted_table_iff.mpr (ih _ _ _ .nil edits)
    case some.closed => cases enters
    case some.table =>
      obtain ⟨entered, _, enters⟩ := Option.bind_eq_some_iff.mp enters
      obtain ⟨edited, edits, enters⟩ := Option.bind_eq_some_iff.mp enters
      cases enters
      have entries_sorted := sorted_table_iff.mp (found_sorted _ rfl)
      exact sorted_table_iff.mpr (ih _ _ _ entries_sorted edits)
    case some.tables =>
      obtain ⟨last, last_eq, enters⟩ := Option.bind_eq_some_iff.mp enters
      obtain ⟨edited, edits, enters⟩ := Option.bind_eq_some_iff.mp enters
      cases enters
      have items_sorted := sorted_tables_iff.mp (found_sorted _ rfl)
      have last_sorted := items_sorted last (List.mem_of_getLast? last_eq)
      exact sorted_tables_concat
        (fun entries before => items_sorted entries (List.mem_of_mem_dropLast before))
        (ih _ _ _ last_sorted edits)

theorem keeps_putNew (key : String) {value : Value} (value_sorted : value.Sorted) :
    Keeps (putNew key value) := by
  simp only [funext fun origin => funext (putNew_eq_change? key value origin)]
  apply keeps_change?
  rintro (_ | node) changed _ places
  · cases places
    exact .closed value_sorted
  · cases places

theorem keeps_putPath (path : List String) (key : String) {value : Value}
    (value_sorted : value.Sorted) : Keeps (putPath path key value) := by
  have keeps_putDotted : Keeps (putDotted key value) := by
    intro origin entries edited sorted edits
    unfold putDotted at edits
    split at edits
    · exact keeps_putNew key value_sorted origin entries edited sorted edits
    · cases edits
  cases path with
  | nil => exact keeps_putNew key value_sorted
  | cons first rest => exact keeps_putDotted.editAt true (first :: rest)

theorem keeps_openTable (key : String) : Keeps (openTable key) := by
  intro _ entries edited sorted opens
  unfold openTable at opens
  split at opens
  · cases opens
    exact sorted.insert key (sorted_table_iff.mpr .nil)
  · rename_i found
    cases opens
    have inner_sorted := sorted_table_iff.mp (sorted.of_find? found)
    exact sorted.insert key (sorted_table_iff.mpr inner_sorted)
  · cases opens

theorem keeps_openNext (key : String) : Keeps (openNext key) := by
  intro _ entries edited sorted opens
  unfold openNext at opens
  split at opens
  · cases opens
    exact sorted.insert key (sorted_tables_concat (List.forall_mem_nil _) .nil)
  · rename_i found
    cases opens
    have items_sorted := sorted_tables_iff.mp (sorted.of_find? found)
    exact sorted.insert key (sorted_tables_concat items_sorted .nil)
  · cases opens

end Edits

section Finish

theorem finishTables_eq_map (items : List (Entries Node)) :
    Node.finishTables items = items.map fun entries => .table (Node.finishEntries entries) := by
  induction items with
  | nil => rfl
  | cons entries items ih => rw [Node.finishTables, ih, List.map_cons]

theorem Node.Sorted.finish {node : Node} (sorted : node.Sorted) : node.finish.Sorted := by
  have table_sorted {entries : Entries Node} (ordered : entries.Ordered)
      (finished : ∀ entry ∈ entries, entry.2.finish.Sorted) :
      (Value.table (finishEntries entries)).Sorted := by
    rw [finishEntries_eq_map]
    exact .table (List.pairwise_map.mpr ordered) (List.forall_mem_map.mpr finished)
  induction sorted with
  | closed value_sorted => exact value_sorted
  | table ordered _ finished => exact table_sorted ordered finished
  | tables items_ordered _ finished =>
    rw [Node.finish, finishTables_eq_map]
    refine .array (List.forall_mem_map.mpr fun entries entries_mem => ?_)
    exact table_sorted (items_ordered entries entries_mem) (finished entries entries_mem)

theorem SortedEntries.finish {entries : Entries Node} (sorted : SortedEntries entries) :
    (Value.table (Node.finishEntries entries)).Sorted := by
  have root_sorted : (Node.table .header entries).Sorted := sorted_table_iff.mpr sorted
  exact root_sorted.finish

end Finish

section Reading

/-- The values that the reader reads are sorted. -/
def ReadsSorted (reader : ValueReader) : Prop :=
  ∀ text value rest, reader text = some (value, rest) → value.Sorted

variable {reader : ValueReader}

theorem sorted_of_readItems? (reads : ReadsSorted reader) {fuel : Nat} {text rest : List Char}
    {items : List Value} (read : readItems? reader fuel text = some (items, rest)) :
    ∀ item ∈ items, item.Sorted := by
  induction fuel generalizing text items rest with
  | zero => cases read
  | succ fuel ih =>
    rw [readItems?] at read
    split at read
    · cases read
      exact List.forall_mem_nil _
    · obtain ⟨⟨item, behind⟩, item_read, read⟩ := Option.bind_eq_some_iff.mp read
      have item_sorted := reads _ _ _ item_read
      dsimp only at read
      split at read
      · cases read
        simpa using item_sorted
      · obtain ⟨⟨others, end_⟩, others_read, read⟩ := Option.bind_eq_some_iff.mp read
        cases read
        exact List.forall_mem_cons.mpr ⟨item_sorted, ih others_read⟩
      · cases read

theorem sorted_of_readKeyValue? (reads : ReadsSorted reader) {skip : List Char → List Char}
    {text rest : List Char} {keys : List String × String} {value : Value}
    (read : readKeyValue? skip reader text = some (keys, value, rest)) : value.Sorted := by
  obtain ⟨⟨keys, behind⟩, _, read⟩ := Option.bind_eq_some_iff.mp read
  dsimp only at read
  split at read
  · obtain ⟨⟨value, end_⟩, value_read, read⟩ := Option.bind_eq_some_iff.mp read
    cases read
    exact reads _ _ _ value_read
  · cases read

theorem sorted_of_readFields? (reads : ReadsSorted reader) {fuel : Nat} {text rest : List Char}
    {entries filled : Entries Node} (sorted : SortedEntries entries)
    (read : readFields? reader fuel entries text = some (filled, rest)) :
    SortedEntries filled := by
  induction fuel generalizing text entries rest with
  | zero => cases read
  | succ fuel ih =>
    rw [readFields?] at read
    split at read
    · cases read
      exact sorted
    · obtain ⟨⟨⟨path, key⟩, value, behind⟩, field_read, read⟩ := Option.bind_eq_some_iff.mp read
      obtain ⟨edited, put, read⟩ := Option.bind_eq_some_iff.mp read
      have value_sorted := sorted_of_readKeyValue? reads field_read
      have edited_sorted := keeps_putPath path key value_sorted _ _ _ sorted put
      split at read
      · cases read
        exact edited_sorted
      · exact ih edited_sorted read
      · cases read

theorem readsSorted_readValueWith? {nested : Option ValueReader}
    (reads : ∀ reader, nested = some reader → ReadsSorted reader) :
    ReadsSorted (readValueWith? nested) := by
  intro text value rest read
  unfold readValueWith? at read
  split at read
  · obtain ⟨reader, nested_eq, read⟩ := Option.bind_eq_some_iff.mp read
    obtain ⟨⟨items, end_⟩, items_read, read⟩ := Option.bind_eq_some_iff.mp read
    cases read
    exact .array (sorted_of_readItems? (reads reader nested_eq) items_read)
  · obtain ⟨reader, nested_eq, read⟩ := Option.bind_eq_some_iff.mp read
    obtain ⟨⟨entries, end_⟩, entries_read, read⟩ := Option.bind_eq_some_iff.mp read
    cases read
    exact (sorted_of_readFields? (reads reader nested_eq) .nil entries_read).finish
  · exact .scalar (isScalar_of_readScalar? read)

theorem readsSorted_readValue? (budget : Nat) : ReadsSorted (readValue? budget) := by
  induction budget with
  | zero => exact readsSorted_readValueWith? (by rintro _ ⟨⟩)
  | succ budget ih =>
    apply readsSorted_readValueWith?
    rintro _ ⟨⟩
    exact ih

theorem sorted_of_entry {draft next : Draft} {text rest : List Char}
    (sorted : SortedEntries draft.root) (read : readEntry? draft text = some (next, rest)) :
    SortedEntries next.root := by
  unfold readEntry? readArrayHeader? readTableHeader? at read
  split at read
  · obtain ⟨⟨⟨path, key⟩, behind⟩, _, read⟩ := Option.bind_eq_some_iff.mp read
    dsimp only at read
    split at read
    · obtain ⟨root, opens, read⟩ := Option.bind_eq_some_iff.mp read
      cases read
      exact (keeps_openNext key).editAt false path _ _ _ sorted opens
    · cases read
  · obtain ⟨⟨⟨path, key⟩, behind⟩, _, read⟩ := Option.bind_eq_some_iff.mp read
    dsimp only at read
    split at read
    · obtain ⟨root, opens, read⟩ := Option.bind_eq_some_iff.mp read
      cases read
      exact (keeps_openTable key).editAt false path _ _ _ sorted opens
    · cases read
  · obtain ⟨⟨⟨path, key⟩, value, behind⟩, value_read, read⟩ := Option.bind_eq_some_iff.mp read
    obtain ⟨root, put, read⟩ := Option.bind_eq_some_iff.mp read
    cases read
    have value_sorted := sorted_of_readKeyValue? (readsSorted_readValue? nestingLimit) value_read
    exact (keeps_putPath path key value_sorted).editAt false draft.header _ _ _ sorted put

theorem sorted_of_readLines? {fuel : Nat} {draft read : Draft} {text : List Char}
    (sorted : SortedEntries draft.root) (reads : readLines? fuel draft text = some read) :
    SortedEntries read.root := by
  induction fuel generalizing draft text with
  | zero => cases reads
  | succ fuel ih =>
    rw [readLines?] at reads
    split at reads
    · cases reads
      exact sorted
    · obtain ⟨⟨next, behind⟩, entry_read, reads⟩ := Option.bind_eq_some_iff.mp reads
      obtain ⟨rest, _, reads⟩ := Option.bind_eq_some_iff.mp reads
      exact ih (sorted_of_entry sorted entry_read) reads

/-- All tables of a document are sorted. -/
theorem sorted_of_ofText? {text : String} {table : List (String × Value)}
    (read : ofText? text = some table) : (Value.table table).Sorted := by
  obtain ⟨draft, lines_read, read⟩ := Option.bind_eq_some_iff.mp read
  cases read
  exact (sorted_of_readLines? .nil lines_read).finish

end Reading

end Toml
end PolicyReview
