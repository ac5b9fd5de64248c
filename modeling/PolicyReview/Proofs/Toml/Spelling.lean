import PolicyReview.Proofs.Toml.Edit
import PolicyReview.Proofs.Toml.Statement

/-!
# Ways to write a table

Lines under one header may stand in any order.  A table in the root of a document may be written
under a header, by dotted keys or as an inline table, with its lines in any order: the document says
the same.
-/

namespace PolicyReview
namespace Toml

/-- Steps that may change places in pairs may stand in any order. -/
theorem foldlM_eq_of_perm {σ α : Type} {step : σ → α → Option σ}
    (commute : ∀ state first second,
      (step state first).bind (step · second) = (step state second).bind (step · first))
    {items others : List α} (perm : items.Perm others) (state : σ) :
    items.foldlM step state = others.foldlM step state := by
  induction perm generalizing state with
  | nil => rfl
  | cons item _ ih => simp [ih]
  | swap first second rest =>
    have swapped := congrArg (fun next => next.bind fun state => rest.foldlM step state)
      (commute state first second)
    simpa [Option.bind_assoc] using swapped.symm
  | trans _ _ first_ih second_ih => exact (first_ih state).trans (second_ih state)

theorem commute_put (first second : Assignment) : Commute first.put second.put :=
  commute_putPath first.path second.path first.key second.key first.value second.value

theorem putAll_eq_of_perm {assignments others : List Assignment}
    (perm : assignments.Perm others) (origin : Origin) (entries : Entries Node) :
    putAll assignments origin entries = putAll others origin entries :=
  foldlM_eq_of_perm
    (fun entries first second => (commute_put first second).bind_comm origin entries) perm entries

theorem follow_comm (draft : Draft) (first second : Line) :
    (first.follow draft).bind (Line.follow · second) =
      (second.follow draft).bind (Line.follow · first) := by
  unfold Line.follow
  cases first.assignment? with
  | none => simp
  | some assignment =>
    cases second.assignment? with
    | none => simp
    | some other =>
      have commute := ((commute_put assignment other).editAt false draft.header).bind_comm .header
        draft.root
      have drafts := congrArg (Option.map fun root => (⟨root, draft.header⟩ : Draft)) commute
      simpa [Option.map_eq_bind, Option.bind_assoc, Function.comp_def] using drafts

theorem followAll_lines (lines : List Line) (draft : Draft) :
    followAll (lines.map .line) draft = lines.foldlM Line.follow draft := by
  rw [followAll, List.foldlM_map]
  rfl

/-- Lines under one header may stand in any order. -/
theorem followAll_eq_of_perm {lines others : List Line} (perm : lines.Perm others) (draft : Draft) :
    followAll (lines.map .line) draft = followAll (others.map .line) draft := by
  rw [followAll_lines, followAll_lines, foldlM_eq_of_perm follow_comm perm]

/-- The order of lines does not matter until the next header. -/
theorem tableOf?_eq_of_perm {lines others : List Line} (perm : lines.Perm others)
    (before after : List Statement) : tableOf? (before ++ lines.map .line ++ after) =
      tableOf? (before ++ others.map .line ++ after) := by
  simp only [tableOf?, followAll_append, funext (followAll_eq_of_perm perm)]

/-- The first of the keys that lead to a value. -/
def Assignment.first (assignment : Assignment) : String :=
  assignment.path.headD assignment.key

/-- The first key of a line. -/
def Line.first (line : Line) : String :=
  line.path.headD line.key

/-- The line that stands behind one more key. -/
def Line.under (key : String) (line : Line) : Line :=
  { line with path := key :: line.path }

/-- The statements write lines into the root of a document and lines into the table under a key,
each in any order: the table by dotted keys, under its header, or as an inline table. -/
inductive SpellsTable (key : String) (before lines : List Line) : List Statement → Prop where
  | dotted {all : List Line} (nonempty : lines ≠ [])
    (order : all.Perm (before ++ lines.map (.under key))) :
    SpellsTable key before lines (all.map .line)
  | header {root inside : List Line} (root_order : root.Perm before) (order : inside.Perm lines) :
    SpellsTable key before lines (root.map .line ++ .header [] key :: inside.map .line)
  | inline {all : List Line} {fields assignments : List Assignment}
    (order : all.Perm (before ++ [⟨[], key, .inline fields⟩]))
    (assigns : lines.mapM Line.assignment? = some assignments)
    (fields_order : fields.Perm assignments) : SpellsTable key before lines (all.map .line)

/-- Put what lines say into a table. -/
def putLines (lines : List Line) (entries : Entries Node) : Option (Entries Node) := do
  let assignments ← lines.mapM Line.assignment?
  putAll assignments .header entries

/-- The table with lines in the root and lines under a key. -/
def tableUnder? (key : String) (before lines : List Line) : Option (List (String × Value)) := do
  let root ← putLines before []
  let inside ← putLines lines []
  some (Entries.insert (Node.finishEntries root) key (.table (Node.finishEntries inside)))

theorem putLines_cons (line : Line) (lines : List Line) (entries : Entries Node) :
    putLines (line :: lines) entries = (do
      let assignment ← line.assignment?
      let entries ← assignment.put .header entries
      putLines lines entries) := by
  cases said : line.assignment? with
  | none => simp [putLines, said]
  | some assignment =>
    cases others : lines.mapM Line.assignment? <;> simp [putLines, said, others]

/-- Lines that put what they say into a table of a draft. -/
theorem foldlM_follow (around : Entries Node → Draft) (written : Line → Line)
    (step : ∀ entries line, (written line).follow (around entries) = (do
      let assignment ← line.assignment?
      let entries ← assignment.put .header entries
      some (around entries)))
    (lines : List Line) (entries : Entries Node) :
    (lines.map written).foldlM Line.follow (around entries) =
      (putLines lines entries).map around := by
  induction lines generalizing entries with
  | nil => rfl
  | cons line lines ih =>
    rw [List.map_cons, List.foldlM_cons, step, putLines_cons]
    cases line.assignment? with
    | none => rfl
    | some assignment =>
      cases put : assignment.put .header entries with
      | none => simp [put]
      | some edited => simpa [put] using ih edited

theorem followAll_root (lines : List Line) (entries : Entries Node) :
    followAll (lines.map .line) ⟨entries, []⟩ =
      (putLines lines entries).map fun entries => ⟨entries, []⟩ := by
  have follows := foldlM_follow (fun entries => ⟨entries, []⟩) id
    (fun entries line => rfl) lines entries
  rwa [List.map_id, ← followAll_lines] at follows

/-- The draft around the entries of the table under a key. -/
def around (root : Entries Node) (key : String) (origin : Origin) (header : List String)
    (entries : Entries Node) : Draft :=
  ⟨root.insert key (.table origin entries), header⟩

theorem followAll_header (root : Entries Node) (key : String) (lines : List Line)
    (entries : Entries Node) :
    followAll (lines.map .line) (around root key .header [key] entries) =
      (putLines lines entries).map (around root key .header [key]) := by
  have follows := foldlM_follow (around root key .header [key]) id
    (fun entries line => by
      simp [around, Line.follow, editAt, Entries.find?_insert, Origin.entered?, Option.bind_assoc,
        Entries.insert_insert]) lines entries
  rwa [List.map_id, ← followAll_lines] at follows

/-- Inside of a table that belongs to dotted keys, dotted keys put values as they do elsewhere. -/
theorem editAt_putDotted (path : List String) (key : String) (value : Value)
    (entries : Entries Node) :
    editAt true (putDotted key value) path .dotted entries =
      putPath path key value .header entries := by
  cases path <;> rfl

/-- What a line behind a key does is done to what stands under the key. -/
theorem follow_under (key : String) (line : Line) (root : Entries Node) :
    (line.under key).follow ⟨root, []⟩ = (do
      let assignment ← line.assignment?
      let edit := editAt true (putDotted assignment.key assignment.value) assignment.path
      let root ← root.change? key (enter true edit)
      some ⟨root, []⟩) := by
  rw [Line.follow, Line.assignment?, Line.assignment?]
  change (line.written.value?.bind _).bind _ = (line.written.value?.bind _).bind _
  cases line.written.value? with
  | none => rfl
  | some value => simp [Line.under, Assignment.put, putPath, editAt_cons]

theorem followAll_dotted (root : Entries Node) (key : String) (lines : List Line)
    (entries : Entries Node) :
    followAll ((lines.map (.under key)).map .line) (around root key .dotted [] entries) =
      (putLines lines entries).map (around root key .dotted []) := by
  rw [followAll_lines]
  apply foldlM_follow (around root key .dotted []) (.under key)
  intro entries line
  rw [around, follow_under]
  simp [around, Entries.change?, enter, Entries.find?_insert, Origin.entered?, editAt_putDotted,
    Assignment.put, Option.bind_assoc, Entries.insert_insert]

/-- A table that belongs to dotted keys is there once the first of them is followed. -/
theorem followAll_dotted_absent {key : String} {root : Entries Node}
    (absent : root.find? key = none) {lines : List Line} (nonempty : lines ≠ []) :
    followAll ((lines.map (.under key)).map .line) ⟨root, []⟩ =
      followAll ((lines.map (.under key)).map .line) (around root key .dotted [] []) := by
  -- The first line makes the table where it is missing and enters it where it is not.
  obtain ⟨line, lines, rfl⟩ := List.exists_cons_of_ne_nil nonempty
  have same : (line.under key).follow ⟨root, []⟩ =
      (line.under key).follow (around root key .dotted [] []) := by
    rw [around, follow_under, follow_under]
    simp [Entries.change?, absent, enter, Entries.find?_insert, Origin.entered?,
      Entries.insert_insert]
  simp [Statement.follow, same]

theorem finishEntries_insert (entries : Entries Node) (key : String) (node : Node) :
    Node.finishEntries (entries.insert key node) =
      Entries.insert (Node.finishEntries entries) key node.finish := by
  rw [finishEntries_eq_map, finishEntries_eq_map, Entries.insert_map]

theorem exists_put_eq_change? (assignment : Assignment) :
    ∃ change, ∀ origin entries,
      assignment.put origin entries = Entries.change? assignment.first change entries := by
  obtain ⟨path, key, value⟩ := assignment
  cases path with
  | nil => exact ⟨_, putNew_eq_change? key value⟩
  | cons first rest => exact ⟨_, editAt_cons true _ first rest⟩

theorem find?_of_put {assignment : Assignment} {origin : Origin} {entries edited : Entries Node}
    {key : String} (put : assignment.put origin entries = some edited)
    (apart : key ≠ assignment.first) : edited.find? key = entries.find? key := by
  obtain ⟨change, put_eq⟩ := exists_put_eq_change? assignment
  rw [put_eq] at put
  exact Entries.find?_of_change? put apart

theorem first_of_assignment? {line : Line} {assignment : Assignment}
    (assigns : line.assignment? = some assignment) : assignment.first = line.first := by
  obtain ⟨value, _, assigns⟩ := Option.bind_eq_some_iff.mp assigns
  cases assigns
  rfl

theorem find?_of_putLines {lines : List Line} {entries edited : Entries Node} {key : String}
    (put : putLines lines entries = some edited) (apart : ∀ line ∈ lines, line.first ≠ key) :
    edited.find? key = entries.find? key := by
  induction lines generalizing entries with
  | nil =>
    cases put
    rfl
  | cons line lines ih =>
    obtain ⟨line_apart, lines_apart⟩ := List.forall_mem_cons.mp apart
    rw [putLines_cons] at put
    obtain ⟨assignment, assigns, put⟩ := Option.bind_eq_some_iff.mp put
    obtain ⟨between, first_put, put⟩ := Option.bind_eq_some_iff.mp put
    rw [ih put lines_apart]
    exact find?_of_put first_put (first_of_assignment? assigns ▸ line_apart.symm)

section Under

variable {key : String} {before lines : List Line} {root : Entries Node}

/-- Statements that put the table under its key once the lines of the root have been followed. -/
theorem tableOf?_of_follows {rest : List Statement} (node : Entries Node → Node)
    (header : List String)
    (finishes : ∀ entries, (node entries).finish = .table (Node.finishEntries entries))
    (follows : ∀ root, putLines before [] = some root → followAll rest ⟨root, []⟩ =
      (putLines lines []).map fun entries => ⟨root.insert key (node entries), header⟩) :
    tableOf? (before.map .line ++ rest) = tableUnder? key before lines := by
  rw [tableOf?, followAll_append, followAll_root, tableUnder?]
  cases put : putLines before [] with
  | none => rfl
  | some root =>
    simp only [Option.map_some, Option.bind_eq_bind, Option.bind_some, follows root put]
    cases putLines lines [] <;> simp [finishEntries_insert, finishes]

theorem followAll_opened (absent : root.find? key = none) (lines : List Line) :
    followAll (.header [] key :: lines.map .line) ⟨root, []⟩ =
      (putLines lines []).map (around root key .header [key]) := by
  have opened : openTable key .header root = some (root.insert key (.table .header [])) := by
    rw [openTable, absent]
  rw [followAll_cons, Statement.follow, editAt_nil, opened]
  exact followAll_header root key lines []

theorem followAll_inline (absent : root.find? key = none) {fields assignments : List Assignment}
    (assigns : lines.mapM Line.assignment? = some assignments)
    (fields_order : fields.Perm assignments) :
    followAll [.line ⟨[], key, .inline fields⟩] ⟨root, []⟩ = (putLines lines []).map fun entries =>
      ⟨root.insert key (.closed (.table (Node.finishEntries entries))), []⟩ := by
  have inside : putLines lines [] = putAll fields .header [] := by
    rw [putLines, assigns, putAll_eq_of_perm fields_order]
    rfl
  rw [inside]
  cases read : putAll fields .header [] <;>
    simp [Statement.follow, Line.follow, Line.assignment?, Written.value?, read, Assignment.put,
      putPath, putNew, absent]

/-- Statements that write the table say it, in whatever way they do. -/
theorem tableOf?_of_spellsTable {statements : List Statement}
    (spells : SpellsTable key before lines statements)
    (apart : ∀ line ∈ before, line.first ≠ key) :
    tableOf? statements = tableUnder? key before lines := by
  have absent (root) (put : putLines before [] = some root) : root.find? key = none :=
    find?_of_putLines put apart
  cases spells with
  | dotted nonempty order =>
    rw [tableOf?, followAll_eq_of_perm order, ← tableOf?, List.map_append]
    refine tableOf?_of_follows (.table .dotted) [] (fun _ => rfl) fun root put => ?_
    rw [followAll_dotted_absent (absent root put) nonempty]
    exact followAll_dotted root key lines []
  | header root_order order =>
    rw [tableOf?, followAll_append, followAll_eq_of_perm root_order, ← followAll_append, ← tableOf?]
    refine tableOf?_of_follows (.table .header) [key] (fun _ => rfl) fun root put => ?_
    rw [followAll_cons, funext (followAll_eq_of_perm order), ← followAll_cons]
    exact followAll_opened (absent root put) lines
  | inline order assigns fields_order =>
    rw [tableOf?, followAll_eq_of_perm order, ← tableOf?, List.map_append]
    exact tableOf?_of_follows (fun entries => .closed (.table (Node.finishEntries entries))) []
      (fun _ => rfl) fun root put => followAll_inline (absent root put) assigns fields_order

end Under

end Toml
end PolicyReview
