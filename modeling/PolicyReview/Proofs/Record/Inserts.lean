import PolicyReview.Proofs.Record.Response
import Mathlib.Data.List.Nodup

/-!
# Responses that are put in

A response is put under its own target.  After any run of responses the last one for a target is
found under it.  Where the run has no response for a key, the entry that stood there before still
stands, whatever target it holds: a table that is read may hold responses under foreign keys, a
table that begins empty never does.  Which of two responses for different targets came first leaves
no trace in the table.
-/

namespace PolicyReview
namespace Responses

/-- The responses after each of the steps has been put in. -/
def insertAll (start : Responses) (steps : List Response) : Responses :=
  steps.foldl insert start

/-- The last of the steps that is for a target. -/
def lastFor? (steps : List Response) (target : String) : Option Response :=
  (steps.filter (·.target == target)).getLast?

/-- Every response stands under its own target. -/
def KeyedByTarget (responses : Responses) : Prop :=
  ∀ entry ∈ responses.byTarget, entry.1 = entry.2.target

instance (responses : Responses) : Decidable responses.KeyedByTarget :=
  inferInstanceAs (Decidable (∀ entry ∈ responses.byTarget, entry.1 = entry.2.target))

section Table

theorem byTarget_insertAll (start : Responses) (steps : List Response) :
    (start.insertAll steps).byTarget =
      start.byTarget.insertAll (steps.map fun step => (step.target, step)) := by
  induction steps generalizing start with
  | nil => rfl
  | cons step steps ih => exact ih (start.insert step)

theorem ordered_insertAll {start : Responses} (ordered : start.byTarget.Ordered)
    (steps : List Response) : (start.insertAll steps).byTarget.Ordered := by
  rw [byTarget_insertAll]
  exact ordered.insertAll _

/-- The last response of a run wins, over the earlier ones and over what the table held. -/
theorem target?_insertAll (start : Responses) (steps : List Response) (target : String) :
    (start.insertAll steps).target? target =
      (lastFor? steps target).or (start.target? target) := by
  rw [target?, byTarget_insertAll, Entries.find?_insertAll, List.filter_map, List.getLast?_map,
    Option.map_map]
  exact congrArg (Option.or · (start.target? target)) Option.map_id'

theorem lastFor?_eq_none_iff {steps : List Response} {target : String} :
    lastFor? steps target = none ↔ target ∉ steps.map (·.target) := by
  simp [lastFor?]

theorem mem_keys_insertAll (start : Responses) (steps : List Response) (key : String) :
    key ∈ (start.insertAll steps).byTarget.keys ↔
      key ∈ start.byTarget.keys ∨ key ∈ steps.map (·.target) := by
  have found : key ∈ (start.insertAll steps).byTarget.keys ↔
      ∃ response, (lastFor? steps key).or (start.target? key) = some response := by
    rw [Entries.mem_keys_iff, ← target?_insertAll]
    rfl
  rw [found, Entries.mem_keys_iff]
  cases last : lastFor? steps key with
  | none =>
    have not_inserted := lastFor?_eq_none_iff.mp last
    rw [Option.none_or, or_iff_left not_inserted]
    rfl
  | some response =>
    have inserted : key ∈ steps.map (·.target) := by
      by_contra not_inserted
      cases last.symm.trans (lastFor?_eq_none_iff.mpr not_inserted)
    exact iff_of_true ⟨response, rfl⟩ (.inr inserted)

/-- An entry under a key that no step is for is neither changed nor added. -/
theorem mem_insertAll_iff {start : Responses} (ordered : start.byTarget.Ordered)
    {steps : List Response} {key : String} (other : key ∉ steps.map (·.target))
    (response : Response) :
    (key, response) ∈ (start.insertAll steps).byTarget ↔ (key, response) ∈ start.byTarget := by
  rw [← (ordered_insertAll ordered steps).find?_eq_some_iff, ← ordered.find?_eq_some_iff]
  change (start.insertAll steps).target? key = some response ↔ start.target? key = some response
  rw [target?_insertAll, lastFor?_eq_none_iff.mpr other, Option.none_or]

end Table

section Keys

theorem KeyedByTarget.insert {responses : Responses} (keyed : responses.KeyedByTarget)
    (response : Response) : (responses.insert response).KeyedByTarget := by
  intro entry entry_mem
  rcases Entries.mem_insert entry_mem with rfl | old
  · rfl
  · exact keyed entry old

theorem KeyedByTarget.insertAll {start : Responses} (keyed : start.KeyedByTarget)
    (steps : List Response) : (start.insertAll steps).KeyedByTarget := by
  induction steps generalizing start with
  | nil => exact keyed
  | cons step steps ih => exact ih (keyed.insert step)

theorem keyedByTarget_empty : empty.KeyedByTarget :=
  List.forall_mem_nil _

end Keys

section Order

/-- Of steps for different targets, the last one for a target is the only one. -/
theorem lastFor?_eq_some_iff {steps : List Response} (distinct : (steps.map (·.target)).Nodup)
    {target : String} {response : Response} :
    lastFor? steps target = some response ↔ response ∈ steps ∧ response.target = target := by
  constructor
  · intro last
    obtain ⟨response_mem, for_target⟩ := List.mem_filter.mp (List.mem_of_getLast? last)
    exact ⟨response_mem, beq_iff_eq.mp for_target⟩
  · rintro ⟨response_mem, rfl⟩
    cases last : lastFor? steps response.target with
    | none => exact absurd (List.mem_map_of_mem response_mem) (lastFor?_eq_none_iff.mp last)
    | some other =>
      obtain ⟨other_mem, for_target⟩ := List.mem_filter.mp (List.mem_of_getLast? last)
      rw [List.inj_on_of_nodup_map distinct other_mem response_mem (beq_iff_eq.mp for_target)]

theorem lastFor?_perm {steps others : List Response} (reordered : steps.Perm others)
    (distinct : (steps.map (·.target)).Nodup) (target : String) :
    lastFor? steps target = lastFor? others target := by
  have others_distinct := (reordered.map (·.target)).nodup_iff.mp distinct
  ext response
  rw [lastFor?_eq_some_iff distinct, lastFor?_eq_some_iff others_distinct, reordered.mem_iff]

/-- Of a run the table keeps the last step for each target and nothing else. -/
theorem insertAll_eq_of_lastFor?_eq {start : Responses} (ordered : start.byTarget.Ordered)
    {steps others : List Response}
    (same : ∀ target, lastFor? steps target = lastFor? others target) :
    start.insertAll steps = start.insertAll others := by
  have same_table : (start.insertAll steps).byTarget = (start.insertAll others).byTarget := by
    apply (ordered_insertAll ordered steps).ext (ordered_insertAll ordered others)
    intro target
    change (start.insertAll steps).target? target = (start.insertAll others).target? target
    rw [target?_insertAll, target?_insertAll, same]
  exact congrArg Responses.mk same_table

end Order

/-- After any run of responses on any sorted table, which a table that is read is, the last response
for a target is found under it, and what the table held where there is none.  The keys are the old
ones and the targets of the run, every entry under another key stays, and the table is still sorted.
A run on the empty table leaves every response under its own target, and responses for different
targets may come in any order. -/
theorem table_after_inserts :
    (∀ text start, ofText text = .ok start → start.byTarget.Ordered) ∧
    (∀ start : Responses, start.byTarget.Ordered → ∀ steps : List Response,
      (∀ target, (start.insertAll steps).target? target =
        (lastFor? steps target).or (start.target? target)) ∧
      (∀ key, key ∈ (start.insertAll steps).byTarget.keys ↔
        key ∈ start.byTarget.keys ∨ key ∈ steps.map (·.target)) ∧
      (∀ key response, key ∉ steps.map (·.target) →
        ((key, response) ∈ (start.insertAll steps).byTarget ↔
          (key, response) ∈ start.byTarget)) ∧
      (start.insertAll steps).byTarget.Ordered ∧
      ∀ others, steps.Perm others → (steps.map (·.target)).Nodup →
        start.insertAll others = start.insertAll steps ∧
        (start.insertAll others).document.map Json.Document.text =
          (start.insertAll steps).document.map Json.Document.text) ∧
    ∀ steps, (empty.insertAll steps).KeyedByTarget := by
  refine ⟨fun _ _ => ordered_of_ofText, ?_, keyedByTarget_empty.insertAll⟩
  intro start ordered steps
  refine ⟨target?_insertAll start steps, mem_keys_insertAll start steps,
    fun _ response other => mem_insertAll_iff ordered other response,
    ordered_insertAll ordered steps, ?_⟩
  intro others reordered distinct
  have same : start.insertAll others = start.insertAll steps :=
    (insertAll_eq_of_lastFor?_eq ordered (lastFor?_perm reordered distinct)).symm
  exact ⟨same, by rw [same]⟩

/-- A table that is read with a response for `b` under `a`: a run with two responses for `b` leaves
it there, and two responses for `b` and `a` may come in either order. -/
theorem table_after_inserts_under_foreign_key :
    ∃ start, ofText ("\x7b\"byTarget\":\x7b\"c\":[\"c\",[]]," ++
        "\"a\":\x7b\"target\":\"b\"\x7d\x7d\x7d") = .ok start ∧
      ¬ start.KeyedByTarget ∧ start.byTarget.Ordered ∧
      (start.insertAll [⟨"b", []⟩, ⟨"b", [⟨"m", [], ⟨"", "", "n"⟩⟩]⟩, ⟨"d", []⟩]).target? "b" =
        some ⟨"b", [⟨"m", [], ⟨"", "", "n"⟩⟩]⟩ ∧
      (start.insertAll [⟨"b", []⟩, ⟨"b", [⟨"m", [], ⟨"", "", "n"⟩⟩]⟩, ⟨"d", []⟩]).target? "a" =
        some ⟨"b", []⟩ ∧
      start.insertAll [⟨"a", []⟩, ⟨"b", []⟩] = start.insertAll [⟨"b", []⟩, ⟨"a", []⟩] ∧
      (empty.insertAll [⟨"b", []⟩, ⟨"a", []⟩]).KeyedByTarget := by
  have start_read : ofText ("\x7b\"byTarget\":\x7b\"c\":[\"c\",[]]," ++
      "\"a\":\x7b\"target\":\"b\"\x7d\x7d\x7d") =
      .ok ⟨[("a", ⟨"b", []⟩), ("c", ⟨"c", []⟩)]⟩ := rfl
  obtain ⟨read_ordered, after_run, keyed⟩ := table_after_inserts
  have ordered := read_ordered _ _ start_read
  obtain ⟨found, _⟩ := after_run _ ordered
    [⟨"b", []⟩, ⟨"b", [⟨"m", [], ⟨"", "", "n"⟩⟩]⟩, ⟨"d", []⟩]
  obtain ⟨_, _, _, _, any_order⟩ := after_run _ ordered [⟨"b", []⟩, ⟨"a", []⟩]
  exact ⟨_, start_read, by decide, ordered, (found "b").trans rfl, (found "a").trans rfl,
    (any_order _ (.swap _ _ _) (by decide)).1, keyed _⟩

end Responses
end PolicyReview
