import PolicyReview.Entries
import Mathlib.Tactic.ByContra

/-!
# Tables stay sorted

Putting a value into a table keeps the table sorted, so the members of a text form a sorted table
whatever their order, and a table that is sorted already is not changed.  Where values stand is
decided by their keys alone, so tables may be made of values before or after these are mapped.
-/

namespace PolicyReview
namespace Entries

variable {α : Type}

theorem mem_insert {entries : Entries α} {key : String} {value : α} {entry : String × α}
    (entry_mem : entry ∈ entries.insert key value) : entry = (key, value) ∨ entry ∈ entries := by
  induction entries with
  | nil => exact .inl (List.mem_singleton.mp entry_mem)
  | cons first rest ih =>
    unfold insert at entry_mem
    split at entry_mem
    · exact List.mem_cons.mp entry_mem
    · split at entry_mem
      · rcases List.mem_cons.mp entry_mem with new | old
        · exact .inl new
        · exact .inr (List.mem_cons_of_mem _ old)
      · rcases List.mem_cons.mp entry_mem with same | later
        · exact .inr (same ▸ List.mem_cons_self)
        · exact (ih later).imp_right (List.mem_cons_of_mem _)

theorem Ordered.insert {entries : Entries α} (ordered : entries.Ordered) (key : String)
    (value : α) : (Entries.insert entries key value).Ordered := by
  induction entries with
  | nil => exact List.pairwise_singleton _ _
  | cons first rest ih =>
    obtain ⟨first_lt, rest_ordered⟩ := List.pairwise_cons.mp ordered
    unfold Entries.insert
    split
    · rename_i before
      apply List.pairwise_cons.mpr ⟨_, ordered⟩
      intro entry entry_mem
      rcases List.mem_cons.mp entry_mem with rfl | later
      · exact before
      · exact String.lt_trans before (first_lt entry later)
    · rename_i not_before
      split
      · rename_i same
        exact List.pairwise_cons.mpr ⟨fun entry later => same ▸ first_lt entry later, rest_ordered⟩
      · rename_i differs
        apply List.pairwise_cons.mpr ⟨_, ih rest_ordered⟩
        intro entry entry_mem
        rcases mem_insert entry_mem with rfl | later
        · by_contra not_after
          exact differs (String.le_antisymm not_after not_before)
        · exact first_lt entry later

theorem mem_of_find?_eq_some {entries : Entries α} {key : String} {value : α}
    (found : entries.find? key = some value) : (key, value) ∈ entries := by
  induction entries with
  | nil => cases found
  | cons first rest ih =>
    rw [find?] at found
    split at found
    · rename_i at_first
      cases found
      exact at_first ▸ List.mem_cons_self
    · exact List.mem_cons_of_mem _ (ih found)

/-- The keys of a table are those under which a value is found. -/
theorem mem_keys_iff {entries : Entries α} {key : String} :
    key ∈ keys entries ↔ ∃ value, entries.find? key = some value := by
  constructor
  · intro key_mem
    induction entries with
    | nil => cases key_mem
    | cons first rest ih =>
      by_cases at_first : key = first.1
      · exact ⟨first.2, by rw [find?, if_pos at_first]⟩
      · rcases List.mem_cons.mp key_mem with same | later
        · exact absurd same at_first
        · rw [find?, if_neg at_first]
          exact ih later
  · rintro ⟨value, found⟩
    exact List.mem_map.mpr ⟨_, mem_of_find?_eq_some found, rfl⟩

/-- The table after the members have been put into it one after the other. -/
def insertAll (entries : Entries α) (members : List (String × α)) : Entries α :=
  members.foldl (fun entries member => entries.insert member.1 member.2) entries

theorem insertAll_cons (entries : Entries α) (member : String × α) (members : List (String × α)) :
    insertAll entries (member :: members) =
      insertAll (entries.insert member.1 member.2) members :=
  rfl

theorem mem_insertAll {members : List (String × α)} {entries : Entries α} {entry : String × α}
    (entry_mem : entry ∈ insertAll entries members) : entry ∈ entries ∨ entry ∈ members := by
  induction members generalizing entries with
  | nil => exact .inl entry_mem
  | cons member members ih =>
    rcases ih entry_mem with inserted | later
    · rcases mem_insert inserted with new | old
      · exact .inr (new ▸ List.mem_cons_self)
      · exact .inl old
    · exact .inr (List.mem_cons_of_mem _ later)

/-- A table holds nothing but the members that were put in. -/
theorem mem_of_mem_ofMembers {members : List (String × α)} {entry : String × α}
    (entry_mem : entry ∈ ofMembers members) : entry ∈ members := by
  rcases mem_insertAll entry_mem with none | member
  · exact absurd none List.not_mem_nil
  · exact member

theorem Ordered.insertAll {entries : Entries α} (ordered : entries.Ordered)
    (members : List (String × α)) : (Entries.insertAll entries members).Ordered := by
  induction members generalizing entries with
  | nil => exact ordered
  | cons member members ih => exact ih (ordered.insert _ _)

theorem ordered_ofMembers (members : List (String × α)) : (ofMembers members).Ordered :=
  Ordered.insertAll List.Pairwise.nil members

theorem insert_of_all_lt {entries : Entries α} {key : String} (value : α)
    (last : ∀ entry ∈ entries, entry.1 < key) :
    entries.insert key value = entries ++ [(key, value)] := by
  induction entries with
  | nil => rfl
  | cons first rest ih =>
    have first_lt := last first List.mem_cons_self
    have not_before : ¬ key < first.1 := String.lt_asymm first_lt
    have differs : key ≠ first.1 := by
      rintro rfl
      exact String.lt_irrefl _ first_lt
    rw [insert, if_neg not_before, if_neg differs,
      ih fun entry later => last entry (List.mem_cons_of_mem _ later)]
    rfl

/-- Members that come in order behind the entries are appended to these. -/
theorem insertAll_eq_append {entries members : Entries α}
    (ordered : Ordered (entries ++ members)) : insertAll entries members = entries ++ members := by
  induction members generalizing entries with
  | nil => exact (List.append_nil entries).symm
  | cons member members ih =>
    have last : ∀ entry ∈ entries, entry.1 < member.1 := fun entry entry_mem =>
      (List.pairwise_append.mp ordered).2.2 entry entry_mem member List.mem_cons_self
    rw [insertAll_cons, insert_of_all_lt _ last, ih]
    · simp
    · simpa using ordered

/-- Members that come in order form the table as they are. -/
theorem ofMembers_eq_self {entries : Entries α} (ordered : entries.Ordered) :
    ofMembers entries = entries :=
  insertAll_eq_append (List.nil_append entries ▸ ordered)

theorem insert_map {β : Type} (f : α → β) (entries : Entries α) (key : String) (value : α) :
    insert (entries.map (Prod.map id f)) key (f value) =
      (entries.insert key value).map (Prod.map id f) := by
  induction entries with
  | nil => rfl
  | cons first rest ih =>
    rw [List.map_cons, insert, insert, ih]
    simp only [Prod.map_fst, id]
    split
    · rfl
    · split <;> rfl

theorem insertAll_map {β : Type} (f : α → β) (entries : Entries α)
    (members : List (String × α)) :
    insertAll (entries.map (Prod.map id f)) (members.map (Prod.map id f)) =
      (insertAll entries members).map (Prod.map id f) := by
  induction members generalizing entries with
  | nil => rfl
  | cons member members ih =>
    rw [List.map_cons, insertAll_cons, insertAll_cons, ← ih, ← insert_map]
    rfl

theorem ofMembers_map {β : Type} (f : α → β) (members : List (String × α)) :
    ofMembers (members.map (Prod.map id f)) = (ofMembers members).map (Prod.map id f) :=
  insertAll_map f [] members

/-- Of the members that were put in, the last with a key is found; where there is none, what was
there before. -/
theorem find?_insertAll (entries : Entries α) (members : List (String × α)) (key : String) :
    (insertAll entries members).find? key =
      (((members.filter (·.1 == key)).getLast?).map (·.2)).or (entries.find? key) := by
  induction members generalizing entries with
  | nil => simp [insertAll]
  | cons member members ih =>
    rw [insertAll_cons, ih, find?_insert]
    by_cases same : member.1 = key
    · rw [List.filter_cons_of_pos (by simp [same]), List.getLast?_cons, if_pos same.symm]
      cases (members.filter (·.1 == key)).getLast? <;> rfl
    · rw [List.filter_cons_of_neg (by simp [same]), if_neg (Ne.symm same)]

/-- In a table that is made of members, the last member with a key is found. -/
theorem find?_ofMembers (members : List (String × α)) (key : String) :
    (ofMembers members).find? key = ((members.filter (·.1 == key)).getLast?).map (·.2) :=
  (find?_insertAll [] members key).trans Option.or_none

/-- The table holds the last of the members with each key and nothing else. -/
def HoldsLast (table : Entries α) (members : List (String × α)) : Prop :=
  table.Ordered ∧
    ∀ key, table.find? key = ((members.filter (·.1 == key)).getLast?).map (·.2)

theorem holdsLast_ofMembers (members : List (String × α)) :
    (ofMembers members).HoldsLast members :=
  ⟨ordered_ofMembers members, find?_ofMembers members⟩

theorem find?_eq_none_of_forall_lt {entries : Entries α} {key : String}
    (before : ∀ entry ∈ entries, key < entry.1) : entries.find? key = none := by
  induction entries with
  | nil => rfl
  | cons first rest ih =>
    obtain ⟨first_lt, rest_lt⟩ := List.forall_mem_cons.mp before
    have differs : key ≠ first.1 := by
      rintro rfl
      exact String.lt_irrefl _ first_lt
    rw [find?, if_neg differs, ih rest_lt]

/-- What is found in a sorted table is what it holds. -/
theorem Ordered.find?_eq_some_iff {entries : Entries α} (ordered : entries.Ordered) {key : String}
    {value : α} : entries.find? key = some value ↔ (key, value) ∈ entries := by
  refine ⟨mem_of_find?_eq_some, fun entry_mem => ?_⟩
  induction entries with
  | nil => cases entry_mem
  | cons first rest ih =>
    obtain ⟨first_lt, rest_ordered⟩ := List.pairwise_cons.mp ordered
    rcases List.mem_cons.mp entry_mem with rfl | later
    · rw [find?, if_pos rfl]
    · have differs : key ≠ first.1 := by
        rintro rfl
        exact String.lt_irrefl _ (first_lt (first.1, value) later)
      rw [find?, if_neg differs]
      exact ih rest_ordered later

/-- The first of the keys is found first. -/
theorem find?_first (first : String × α) (rest : Entries α) :
    find? (first :: rest) first.1 = some first.2 := by
  rw [find?, if_pos rfl]

/-- Of two sorted tables with the same look-ups, neither begins before the other. -/
theorem Ordered.not_first_lt {first other : String × α} {rest others : Entries α}
    (others_ordered : Ordered (other :: others))
    (same : ∀ key, find? (first :: rest) key = find? (other :: others) key) :
    ¬ first.1 < other.1 := by
  intro before
  have none_found : find? (other :: others) first.1 = none := by
    apply find?_eq_none_of_forall_lt
    refine List.forall_mem_cons.mpr ⟨before, fun entry entry_mem => ?_⟩
    exact String.lt_trans before ((List.pairwise_cons.mp others_ordered).1 entry entry_mem)
  rw [← same, find?_first] at none_found
  cases none_found

/-- Sorted tables with the same look-ups are equal. -/
theorem Ordered.ext {entries others : Entries α} (ordered : entries.Ordered)
    (others_ordered : others.Ordered) (same : ∀ key, entries.find? key = others.find? key) :
    entries = others := by
  induction entries generalizing others with
  | nil =>
    cases others with
    | nil => rfl
    | cons other others => cases (same other.1).trans (find?_first other others)
  | cons first rest ih =>
    cases others with
    | nil => cases (find?_first first rest).symm.trans (same first.1)
    | cons other others =>
      have key_eq : first.1 = other.1 :=
        String.le_antisymm (String.not_lt.mp (ordered.not_first_lt fun key => (same key).symm))
          (String.not_lt.mp (others_ordered.not_first_lt same))
      have value_eq : some first.2 = some other.2 := by
        rw [← find?_first first rest, same, key_eq, find?_first]
      obtain ⟨first_lt, rest_ordered⟩ := List.pairwise_cons.mp ordered
      obtain ⟨other_lt, others_ordered⟩ := List.pairwise_cons.mp others_ordered
      have rest_same (key : String) : find? rest key = find? others key := by
        by_cases at_first : key = first.1
        · rw [at_first, find?_eq_none_of_forall_lt first_lt, key_eq,
            find?_eq_none_of_forall_lt other_lt]
        · have found := same key
          rwa [find?, if_neg at_first, find?, if_neg (key_eq ▸ at_first)] at found
      rw [Prod.ext key_eq (Option.some.inj value_eq), ih rest_ordered others_ordered rest_same]

/-- There is one table that holds the last of the members with each key. -/
theorem holdsLast_iff {table : Entries α} {members : List (String × α)} :
    table.HoldsLast members ↔ table = ofMembers members := by
  constructor
  · rintro ⟨ordered, found⟩
    exact ordered.ext (ordered_ofMembers members) fun key =>
      (found key).trans (find?_ofMembers members key).symm
  · rintro rfl
    exact holdsLast_ofMembers members

/-- Of the order of members a table keeps only the order of those with equal keys. -/
theorem ofMembers_eq_of_filter_eq {members others : List (String × α)}
    (same : ∀ key, members.filter (·.1 == key) = others.filter (·.1 == key)) :
    ofMembers members = ofMembers others := by
  apply (ordered_ofMembers members).ext (ordered_ofMembers others)
  intro key
  rw [find?_ofMembers, find?_ofMembers, same]

/-- An entry with a new key is found where it was appended. -/
theorem find?_concat {done : Entries α} {key : String} (new : done.find? key = none) (value : α)
    (other : String) : find? (done ++ [(key, value)]) other =
      if other = key then some value else done.find? other := by
  induction done with
  | nil => rfl
  | cons first rest ih =>
    rw [find?] at new
    split at new
    · cases new
    · rename_i key_ne
      rw [List.cons_append, find?, ih new, find?]
      by_cases at_first : other = first.1
      · have other_ne : ¬ other = key := fun same => key_ne (same ▸ at_first)
        rw [if_pos at_first, if_neg other_ne, if_pos at_first]
      · rw [if_neg at_first, if_neg at_first]

/-- In a sorted table keys do not come again. -/
theorem find?_eq_none_of_ordered {done rest : Entries α} {entry : String × α}
    (ordered : Ordered (done ++ entry :: rest)) : done.find? entry.1 = none := by
  by_contra found
  obtain ⟨value, found⟩ := Option.ne_none_iff_exists'.mp found
  have before := (List.pairwise_append.mp ordered).2.2 _ (mem_of_find?_eq_some found)
    entry List.mem_cons_self
  exact String.lt_irrefl _ before

/-- A value under the first key is replaced. -/
theorem insert_cons_self (key : String) (value later : α) (rest : Entries α) :
    insert ((key, value) :: rest) key later = (key, later) :: rest := by
  rw [insert, if_neg (String.lt_irrefl key), if_pos rfl]

theorem insert_insert (entries : Entries α) (key : String) (value later : α) :
    (entries.insert key value).insert key later = entries.insert key later := by
  induction entries with
  | nil => exact insert_cons_self key value later []
  | cons first rest ih =>
    rw [insert, insert]
    split
    · exact insert_cons_self key value later (first :: rest)
    · rename_i not_before
      split
      · exact insert_cons_self key value later rest
      · rename_i differs
        rw [insert, if_neg not_before, if_neg differs, ih]

theorem insert_comm (entries : Entries α) {key other : String} (differ : key ≠ other)
    (value otherValue : α) :
    (entries.insert key value).insert other otherValue =
      (entries.insert other otherValue).insert key value := by
  have asymm (first second : String) : first < second → ¬ second < first := String.lt_asymm
  have trans (first second third : String) :
      first < second → second < third → first < third := String.lt_trans
  have antisymm (first second : String) :
      ¬ first < second → ¬ second < first → first = second := fun not_before not_after =>
    String.le_antisymm (String.not_lt.mp not_after) (String.not_lt.mp not_before)
  induction entries with
  | nil => grind [insert]
  | cons first rest ih => grind [insert]

/-- The table after a change to what stands under a key, if anything does, where the change can be
made. -/
def change? (key : String) (change : Option α → Option α) (entries : Entries α) :
    Option (Entries α) := do
  let value ← change (entries.find? key)
  some (entries.insert key value)

theorem change?_bind_change? (key : String) (change next : Option α → Option α)
    (entries : Entries α) :
    (entries.change? key change).bind (change? key next) =
      entries.change? key fun found => (change found).bind fun value => next (some value) := by
  simp [change?, Option.bind_assoc, find?_insert, insert_insert]

theorem find?_of_change? {key other : String} {change : Option α → Option α}
    {entries changed : Entries α} (change_eq : entries.change? key change = some changed)
    (differ : other ≠ key) : changed.find? other = entries.find? other := by
  obtain ⟨value, _, change_eq⟩ := Option.bind_eq_some_iff.mp change_eq
  cases change_eq
  rw [find?_insert, if_neg differ]

/-- Changes under different keys may change places. -/
theorem change?_comm {key other : String} (differ : key ≠ other)
    (change otherChange : Option α → Option α) (entries : Entries α) :
    (entries.change? key change).bind (change? other otherChange) =
      (entries.change? other otherChange).bind (change? key change) := by
  cases changed : change (entries.find? key) <;>
    cases otherChanged : otherChange (entries.find? other) <;>
      simp [change?, find?_insert, differ, differ.symm, insert_comm, changed, otherChanged]

end Entries
end PolicyReview
