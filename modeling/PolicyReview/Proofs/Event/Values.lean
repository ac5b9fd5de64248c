import PolicyReview.Event.Dynamic
import PolicyReview.Event.Structured
import PolicyReview.Proofs.Outcome
import PolicyReview.Proofs.Structured.Readers

/-!
# Values from events

Dynamic and structured values are taken from the same events, save that a structured value has no
place for a word that is not finite, wherever in the events it stands.  Where both are taken, the
structured value is the structural image of the dynamic one.  Of the entries of a map with equal
keys the last one stays, though all of them are taken.
-/

namespace PolicyReview
namespace Event

/-- Induction over the parts of an event, the keys of its maps included. -/
@[elab_as_elim, induction_eliminator]
theorem parts_induction {motive : Event → Prop} (unit : motive .unit) (none : motive .none)
    (some : ∀ content, motive content → motive (.some content))
    (wrapped : ∀ content, motive content → motive (.wrapped content))
    (bool : ∀ value, motive (.bool value)) (int : ∀ value, motive (.int value))
    (uint : ∀ value, motive (.uint value)) (wideInt : ∀ value, motive (.wideInt value))
    (wideUInt : ∀ value, motive (.wideUInt value)) (float : ∀ word, motive (.float word))
    (char : ∀ value, motive (.char value)) (string : ∀ value, motive (.string value))
    (ownedString : ∀ value, motive (.ownedString value)) (bytes : ∀ value, motive (.bytes value))
    (list : ∀ items, (∀ item ∈ items, motive item) → motive (.list items))
    (map : ∀ entries, (∀ entry ∈ entries, motive entry.1 ∧ motive entry.2) → motive (.map entries))
    (event : Event) : motive event :=
  @Event.rec motive (fun items => ∀ item ∈ items, motive item)
    (fun entries => ∀ entry ∈ entries, motive entry.1 ∧ motive entry.2)
    (fun entry => motive entry.1 ∧ motive entry.2)
    unit none some wrapped bool int uint wideInt wideUInt float char string ownedString bytes
    list map
    (List.forall_mem_nil _) (fun _ _ head tail => List.forall_mem_cons.mpr ⟨head, tail⟩)
    (List.forall_mem_nil _) (fun _ _ head tail => List.forall_mem_cons.mpr ⟨head, tail⟩)
    (fun _ _ key content => ⟨key, content⟩) event

mutual

/-- The floating-point words anywhere in an event, those in the keys of its maps included. -/
def words : Event → List Binary64
  | .float word => [word]
  | .some content => content.words
  | .wrapped content => content.words
  | .list items => itemsWords items
  | .map entries => entriesWords entries
  | _ => []

/-- The words in the items of a sequence. -/
def itemsWords : List Event → List Binary64
  | [] => []
  | item :: items => item.words ++ itemsWords items

/-- The words in the entries of a map. -/
def entriesWords : List (Event × Event) → List Binary64
  | [] => []
  | (key, content) :: entries => key.words ++ content.words ++ entriesWords entries

end

/-- Every word anywhere in the event is finite. -/
def AllFinite (event : Event) : Prop :=
  ∀ word ∈ event.words, word.isFinite = true

theorem allFinite_list_iff {items : List Event} :
    (list items).AllFinite ↔ ∀ item ∈ items, item.AllFinite := by
  rw [AllFinite, words]
  induction items with
  | nil => simp [itemsWords]
  | cons item items ih =>
    rw [itemsWords, List.forall_mem_append, ih, List.forall_mem_cons, ← AllFinite]

theorem allFinite_map_iff {entries : List (Event × Event)} :
    (map entries).AllFinite ↔ ∀ entry ∈ entries, entry.1.AllFinite ∧ entry.2.AllFinite := by
  rw [AllFinite, words]
  induction entries with
  | nil => simp [entriesWords]
  | cons entry entries ih =>
    obtain ⟨key, content⟩ := entry
    rw [entriesWords, List.forall_mem_append, List.forall_mem_append, ih, List.forall_mem_cons,
      ← AllFinite, ← AllFinite]

/-- There are no words in what stands for a key. -/
theorem allFinite_of_key {event : Event} {name : String} (key_eq : event.key = .ok name) :
    event.AllFinite := by
  cases event <;> first | exact List.forall_mem_nil _ | cases key_eq

section Members

variable {α : Type} {visit : Event → Except EventError α}

/-- The member that a visitor makes of an entry of a map, the key before the value. -/
def member (visit : Event → Except EventError α) (entry : Event × Event) :
    Except EventError (String × α) := do
  let key ← entry.1.key
  let value ← visit entry.2
  .ok (key, value)

theorem member_eq_ok_iff {entry : Event × Event} {made : String × α} :
    member visit entry = .ok made ↔
      entry.1.key = .ok made.1 ∧ visit entry.2 = .ok made.2 := by
  simp only [member, bind_eq_ok_iff, Except.ok.injEq]
  constructor
  · rintro ⟨key, key_eq, value, value_eq, rfl⟩
    exact ⟨key_eq, value_eq⟩
  · rintro ⟨key_eq, value_eq⟩
    exact ⟨_, key_eq, _, value_eq, rfl⟩

theorem exists_member_iff {entry : Event × Event} :
    (∃ made, member visit entry = .ok made) ↔
      (∃ name, entry.1.key = .ok name) ∧ ∃ value, visit entry.2 = .ok value := by
  simp only [member_eq_ok_iff, Prod.exists, exists_and_left, exists_and_right]

end Members
end Event

namespace Dynamic

theorem ofEvent_list (items : List Event) :
    ofEvent (.list items) = (items.mapM ofEvent).map list := by
  have items_eq : ofEvents items = items.mapM ofEvent :=
    eq_mapM ofEvent ofEvents rfl (fun _ _ => rfl) items
  rw [ofEvent, items_eq]
  rfl

theorem ofEvent_map (entries : List (Event × Event)) :
    ofEvent (.map entries) =
      (entries.mapM (Event.member ofEvent)).map fun members => map (Entries.ofMembers members) := by
  have entries_eq : ofEventEntries entries = entries.mapM (Event.member ofEvent) := by
    refine eq_mapM (Event.member ofEvent) ofEventEntries rfl (fun (key, content) entries => ?_)
      entries
    simp only [ofEventEntries, Event.member, bind_assoc]
    rfl
  rw [ofEvent, entries_eq]
  rfl

end Dynamic

namespace Structured

theorem ofEvent_list (items : List Event) :
    ofEvent (.list items) = (items.mapM ofEvent).map list := by
  have items_eq : ofEvents items = items.mapM ofEvent :=
    eq_mapM ofEvent ofEvents rfl (fun _ _ => rfl) items
  rw [ofEvent, items_eq]
  rfl

theorem ofEvent_map (entries : List (Event × Event)) :
    ofEvent (.map entries) = (entries.mapM (Event.member ofEvent)).map
      fun members => object (Entries.ofMembers members) := by
  have entries_eq : ofEventEntries entries = entries.mapM (Event.member ofEvent) := by
    refine eq_mapM (Event.member ofEvent) ofEventEntries rfl (fun (key, content) entries => ?_)
      entries
    simp only [ofEventEntries, Event.member, bind_assoc]
    rfl
  rw [ofEvent, entries_eq]
  rfl

/-- The number of a signed integer is converted to the integer. -/
theorem toDynamic_ofInt64 (value : Int64) : (ofInt64 value).toDynamic = .int value := by
  have number_eq : ofInt64 value = .number (Dynamic.numberOfInt value) := by
    rw [ofInt64, Dynamic.numberOfInt]
    split <;> rfl
  rw [number_eq]
  exact Dynamic.ofNumber_numberOfInt value

/-- Where a structured value is taken from an event, the dynamic value that it is converted to is
taken from it too. -/
theorem ofEvent_toDynamic {event : Event} {value : Structured}
    (taken : ofEvent event = .ok value) : Dynamic.ofEvent event = .ok value.toDynamic := by
  induction event generalizing value with
  | unit => cases taken; rfl
  | none => cases taken; rfl
  | some content ih => exact ih taken
  | wrapped content => cases taken
  | bool value => cases taken; rfl
  | int value =>
    cases taken
    rw [Dynamic.ofEvent, toDynamic_ofInt64]
  | uint value => cases taken; rfl
  | wideInt value => cases taken
  | wideUInt value => cases taken
  | float word =>
    rw [ofEvent, ofWord] at taken
    split at taken <;> cases taken
    rfl
  | char value => cases taken; rfl
  | string value => cases taken; rfl
  | ownedString value => cases taken; rfl
  | bytes value => cases taken
  | list items ih =>
    rw [ofEvent_list] at taken
    obtain ⟨values, values_eq, rfl⟩ := exists_of_map_eq_ok taken
    have dynamic_eq : items.mapM Dynamic.ofEvent = .ok (values.map toDynamic) := by
      rw [mapM_eq_ok_iff] at values_eq ⊢
      rw [List.forall₂_map_right_iff]
      exact forall₂_of_mem (fun item item_mem value => ih item item_mem) values_eq
    rw [Dynamic.ofEvent_list, dynamic_eq, toDynamic_list]
    rfl
  | map entries ih =>
    rw [ofEvent_map] at taken
    obtain ⟨members, members_eq, rfl⟩ := exists_of_map_eq_ok taken
    have dynamic_eq : entries.mapM (Event.member Dynamic.ofEvent) =
        .ok (members.map (Prod.map id toDynamic)) := by
      rw [mapM_eq_ok_iff] at members_eq ⊢
      rw [List.forall₂_map_right_iff]
      refine forall₂_of_mem (fun entry entry_mem member made => ?_) members_eq
      rw [Event.member_eq_ok_iff] at made ⊢
      exact ⟨made.1, (ih entry entry_mem).2 made.2⟩
    rw [Dynamic.ofEvent_map, dynamic_eq, toDynamic_object, ← Entries.ofMembers_map]
    rfl

/-- A structured value is taken where a dynamic value is and all words are finite. -/
theorem exists_ofEvent_iff (event : Event) :
    (∃ value, ofEvent event = .ok value) ↔
      (∃ value, Dynamic.ofEvent event = .ok value) ∧ event.AllFinite := by
  induction event with
  | unit | none | bool value | int value | uint value | char value | string value
  | ownedString value =>
    exact iff_of_true ⟨_, rfl⟩ ⟨⟨_, rfl⟩, List.forall_mem_nil _⟩
  | wrapped content | wideInt value | wideUInt value | bytes value =>
    constructor
    · rintro ⟨value, taken⟩
      cases taken
    · rintro ⟨⟨value, taken⟩, -⟩
      cases taken
  | some content ih => exact ih
  | float word =>
    have taken_iff : (∃ value, ofEvent (.float word) = .ok value) ↔ word.isFinite = true := by
      rw [ofEvent, ofWord]
      split
      · rename_i finite
        exact iff_of_true ⟨_, rfl⟩ finite
      · rename_i notFinite
        refine iff_of_false ?_ notFinite
        rintro ⟨value, taken⟩
        cases taken
    rw [taken_iff]
    constructor
    · exact fun finite => ⟨⟨_, rfl⟩, List.forall_mem_singleton.mpr finite⟩
    · exact fun both => both.2 word List.mem_cons_self
  | list items ih =>
    rw [ofEvent_list, Dynamic.ofEvent_list, exists_map_eq_ok_iff, exists_map_eq_ok_iff,
      exists_mapM_eq_ok_iff, exists_mapM_eq_ok_iff, Event.allFinite_list_iff, ← forall₂_and]
    exact forall₂_congr ih
  | map entries ih =>
    rw [ofEvent_map, Dynamic.ofEvent_map, exists_map_eq_ok_iff, exists_map_eq_ok_iff,
      exists_mapM_eq_ok_iff, exists_mapM_eq_ok_iff, Event.allFinite_map_iff, ← forall₂_and]
    refine forall₂_congr fun entry entry_mem => ?_
    -- The keys are taken alike, and a key that is taken has no words.
    rw [Event.exists_member_iff, Event.exists_member_iff, (ih entry entry_mem).2]
    constructor
    · rintro ⟨⟨name, key_eq⟩, taken, finite⟩
      exact ⟨⟨⟨name, key_eq⟩, taken⟩, Event.allFinite_of_key key_eq, finite⟩
    · rintro ⟨⟨named, taken⟩, _, finite⟩
      exact ⟨named, taken, finite⟩

end Structured

namespace Event

/-- The members that a visitor makes of the entries of a map, one for each entry. -/
def Makes {α : Type} (visit : Event → Except EventError α) (entries : List (Event × Event))
    (members : List (String × α)) : Prop :=
  List.Forall₂ (fun entry member => entry.1.key = .ok member.1 ∧ visit entry.2 = .ok member.2)
    entries members

theorem makes_of_mapM_eq_ok {α : Type} {visit : Event → Except EventError α}
    {entries : List (Event × Event)} {members : List (String × α)}
    (members_eq : entries.mapM (member visit) = .ok members) : Makes visit entries members :=
  (mapM_eq_ok_iff.mp members_eq).imp fun _ _ => member_eq_ok_iff.mp

/-- Both types of values are taken from the same events but for words that are not finite, and where
both are taken the one is the image of the other.  In the table that is taken from a map the last of
the entries with a key stays. -/
theorem values_agree (event : Event) :
    ((∃ value, Structured.ofEvent event = .ok value) ↔
      (∃ value, Dynamic.ofEvent event = .ok value) ∧ event.AllFinite) ∧
    (∀ dynamic structured, Dynamic.ofEvent event = .ok dynamic →
      Structured.ofEvent event = .ok structured → Structured.image? dynamic = .some structured) ∧
    ∀ entries,
      (∀ value, Dynamic.ofEvent (.map entries) = .ok value → ∃ members table,
        Makes Dynamic.ofEvent entries members ∧ Entries.HoldsLast table members ∧
          value = .map table) ∧
      (∀ value, Structured.ofEvent (.map entries) = .ok value → ∃ members table,
        Makes Structured.ofEvent entries members ∧ Entries.HoldsLast table members ∧
          value = .object table) := by
  refine ⟨Structured.exists_ofEvent_iff event, ?image, fun entries => ⟨?dynamic, ?structured⟩⟩
  case image =>
    intro dynamic structured dynamic_eq structured_eq
    rw [Structured.ofEvent_toDynamic structured_eq] at dynamic_eq
    cases dynamic_eq
    exact structured.image?_toDynamic
  case dynamic =>
    intro value value_eq
    rw [Dynamic.ofEvent_map] at value_eq
    obtain ⟨members, members_eq, rfl⟩ := exists_of_map_eq_ok value_eq
    exact ⟨members, _, makes_of_mapM_eq_ok members_eq, Entries.holdsLast_ofMembers members, rfl⟩
  case structured =>
    intro value value_eq
    rw [Structured.ofEvent_map] at value_eq
    obtain ⟨members, members_eq, rfl⟩ := exists_of_map_eq_ok value_eq
    exact ⟨members, _, makes_of_mapM_eq_ok members_eq, Entries.holdsLast_ofMembers members, rfl⟩

end Event
end PolicyReview
