import PolicyReview.Dynamic.Basic

/-!
# Dynamic values by parts

Laws about dynamic values go by induction over the items of a list and the entries of a table.  The
words of a value are all its floating-point words in the order in which they are written, so the
first word without JSON form is the first of them that is not finite.
-/

namespace PolicyReview
namespace Dynamic

/-- Induction over the parts of a dynamic value. -/
@[elab_as_elim, induction_eliminator]
theorem parts_induction {motive : Dynamic → Prop} (null : motive .null)
    (bool : ∀ value, motive (.bool value)) (int : ∀ value, motive (.int value))
    (uint : ∀ value, motive (.uint value)) (float : ∀ word, motive (.float word))
    (string : ∀ value, motive (.string value))
    (list : ∀ items, (∀ item ∈ items, motive item) → motive (.list items))
    (map : ∀ entries, (∀ entry ∈ entries, motive entry.2) → motive (.map entries))
    (value : Dynamic) : motive value :=
  match value with
  | .null => null
  | .bool value => bool value
  | .int value => int value
  | .uint value => uint value
  | .float word => float word
  | .string value => string value
  | .list items =>
    list items fun item _ => parts_induction null bool int uint float string list map item
  | .map entries =>
    map entries fun (_, value) _ => parts_induction null bool int uint float string list map value
decreasing_by
  · have := List.sizeOf_lt_of_mem ‹item ∈ items›
    simp only [Dynamic.list.sizeOf_spec]
    omega
  · have := List.sizeOf_lt_of_mem ‹(_, value) ∈ entries›
    simp only [Dynamic.map.sizeOf_spec, Prod.mk.sizeOf_spec] at this ⊢
    omega

mutual

/-- The entries of every table in the value are sorted by key. -/
def Ordered : Dynamic → Prop
  | .list items => ItemsOrdered items
  | .map entries => Entries.Ordered entries ∧ EntriesOrdered entries
  | _ => True

/-- Every item of a list is ordered. -/
def ItemsOrdered : List Dynamic → Prop
  | [] => True
  | item :: items => item.Ordered ∧ ItemsOrdered items

/-- Every entry of a table holds an ordered value. -/
def EntriesOrdered : List (String × Dynamic) → Prop
  | [] => True
  | (_, value) :: entries => value.Ordered ∧ EntriesOrdered entries

end

theorem itemsOrdered_iff {items : List Dynamic} :
    ItemsOrdered items ↔ ∀ item ∈ items, item.Ordered := by
  induction items with
  | nil => simp [ItemsOrdered]
  | cons item items ih => rw [ItemsOrdered, ih, List.forall_mem_cons]

theorem entriesOrdered_iff {entries : List (String × Dynamic)} :
    EntriesOrdered entries ↔ ∀ entry ∈ entries, entry.2.Ordered := by
  induction entries with
  | nil => simp [EntriesOrdered]
  | cons entry entries ih =>
    obtain ⟨key, value⟩ := entry
    rw [EntriesOrdered, ih, List.forall_mem_cons]

mutual

/-- The floating-point words anywhere in a value, in order of list positions and sorted keys. -/
def words : Dynamic → List Binary64
  | .float word => [word]
  | .list items => itemsWords items
  | .map entries => entriesWords entries
  | _ => []

/-- The words in the items of a list. -/
def itemsWords : List Dynamic → List Binary64
  | [] => []
  | item :: items => item.words ++ itemsWords items

/-- The words in the entries of a table. -/
def entriesWords : List (String × Dynamic) → List Binary64
  | [] => []
  | (_, value) :: entries => value.words ++ entriesWords entries

end

/-- Every word anywhere in the value is finite. -/
def AllFinite (value : Dynamic) : Prop :=
  ∀ word ∈ value.words, word.isFinite = true

instance (value : Dynamic) : Decidable value.AllFinite :=
  inferInstanceAs (Decidable (∀ word ∈ value.words, word.isFinite = true))

theorem allFinite_list_iff {items : List Dynamic} :
    (list items).AllFinite ↔ ∀ item ∈ items, item.AllFinite := by
  rw [AllFinite, words]
  induction items with
  | nil => simp [itemsWords]
  | cons item items ih =>
    rw [itemsWords, List.forall_mem_append, ih, List.forall_mem_cons, ← AllFinite]

theorem allFinite_map_iff {entries : List (String × Dynamic)} :
    (map entries).AllFinite ↔ ∀ entry ∈ entries, entry.2.AllFinite := by
  rw [AllFinite, words]
  induction entries with
  | nil => simp [entriesWords]
  | cons entry entries ih =>
    obtain ⟨key, value⟩ := entry
    rw [entriesWords, List.forall_mem_append, ih, List.forall_mem_cons, ← AllFinite]

theorem itemsDepth_le_iff {items : List Dynamic} {bound : Nat} :
    itemsDepth items ≤ bound ↔ ∀ item ∈ items, item.depth ≤ bound := by
  induction items with
  | nil => simp [itemsDepth]
  | cons item items ih => rw [itemsDepth, Nat.max_le, ih, List.forall_mem_cons]

theorem entriesDepth_le_iff {entries : List (String × Dynamic)} {bound : Nat} :
    entriesDepth entries ≤ bound ↔ ∀ entry ∈ entries, entry.2.depth ≤ bound := by
  induction entries with
  | nil => simp [entriesDepth]
  | cons entry entries ih =>
    obtain ⟨key, value⟩ := entry
    rw [entriesDepth, Nat.max_le, ih, List.forall_mem_cons]

theorem firstNonFinite?_eq_find? (value : Dynamic) :
    value.firstNonFinite? = value.words.find? fun word => !word.isFinite := by
  induction value with
  | null => rfl
  | bool value => rfl
  | int value => rfl
  | uint value => rfl
  | string value => rfl
  | float word => cases finite : word.isFinite <;> simp [firstNonFinite?, words, finite]
  | list items ih =>
    rw [firstNonFinite?, words]
    induction items with
    | nil => rfl
    | cons item items items_ih =>
      rw [itemsNonFinite?, itemsWords, List.find?_append, ih item List.mem_cons_self,
        items_ih fun other other_mem => ih other (List.mem_cons_of_mem _ other_mem)]
  | map entries ih =>
    rw [firstNonFinite?, words]
    induction entries with
    | nil => rfl
    | cons entry entries entries_ih =>
      obtain ⟨key, value⟩ := entry
      rw [entriesNonFinite?, entriesWords, List.find?_append, ih (key, value) List.mem_cons_self,
        entries_ih fun other other_mem => ih other (List.mem_cons_of_mem _ other_mem)]

theorem firstNonFinite?_eq_none_iff (value : Dynamic) :
    value.firstNonFinite? = none ↔ value.AllFinite := by
  rw [firstNonFinite?_eq_find?, List.find?_eq_none]
  simp [AllFinite]

end Dynamic
end PolicyReview
