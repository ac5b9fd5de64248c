import PolicyReview.Proofs.Json.Meaning
import Mathlib.Data.List.Nodup

/-!
# What records are spelled by

A record is spelled by an object that gives each field at most once, or by a list that gives the
first fields in their declared order.  A slot is a field together with what documents spell for it;
the slots of a record keep their values apart, so the order of the members does not matter.
-/

namespace PolicyReview
namespace Json

variable {α β σ : Type}

/-- The values of the members with a name. -/
def valuesUnder (name : String) (members : List (String × Document)) : List Document :=
  (members.filter (·.1 == name)).map (·.2)

theorem valuesUnder_cons_of_eq {name : String} {member : String × Document} (same : member.1 = name)
    (members : List (String × Document)) :
    valuesUnder name (member :: members) = member.2 :: valuesUnder name members := by
  simp [valuesUnder, same]

theorem valuesUnder_cons_of_ne {name : String} {member : String × Document}
    (differs : member.1 ≠ name) (members : List (String × Document)) :
    valuesUnder name (member :: members) = valuesUnder name members := by
  simp [valuesUnder, differs]

theorem mem_valuesUnder_iff {name : String} {members : List (String × Document)}
    {document : Document} : document ∈ valuesUnder name members ↔ (name, document) ∈ members := by
  simp [valuesUnder]

/-- The members that a document gives to a record with the named fields: the members of an object,
or the items of a list that is not too long, under the names in order. -/
def Document.membersFor? (names : List String) : Document → Option (List (String × Document))
  | .scalar _ => none
  | .list items => if items.length ≤ names.length then some (names.zip items) else none
  | .object members => some members

/-- What the values under the name of a field give it: nothing, or what the only value spells. -/
inductive Given (spells : Document → β → Prop) : List Document → Option β → Prop where
  | absent : Given spells [] none
  | once {document : Document} {value : β} (spelled : spells document value) :
    Given spells [document] (some value)

section Given

variable {spells : Document → β → Prop}

@[simp]
theorem given_some_iff {values : List Document} {value : β} :
    Given spells values (some value) ↔ ∃ document, values = [document] ∧ spells document value := by
  constructor
  · rintro ⟨⟩
    exact ⟨_, rfl, ‹_›⟩
  · rintro ⟨document, rfl, spelled⟩
    exact .once spelled

theorem given_nil_iff {given : Option β} : Given spells [] given ↔ given = none := by
  constructor
  · rintro ⟨⟩
    rfl
  · rintro rfl
    exact .absent

theorem given_cons_iff {document : Document} {values : List Document} {given : Option β} :
    Given spells (document :: values) given ↔
      ∃ value, spells document value ∧ values = [] ∧ given = some value := by
  constructor
  · rintro ⟨⟩
    exact ⟨_, ‹_›, rfl, rfl⟩
  · rintro ⟨value, spelled, rfl, rfl⟩
    exact .once spelled

end Given

/-- A field of a record with what documents spell for it. -/
structure Slot (σ : Type) where
  name : String
  /-- The values of the field. -/
  Value : Type
  /-- The value that a draft holds. -/
  get : σ → Option Value
  set : σ → Value → σ
  read : Nat → Reader Value
  spells : Document → Value → Prop
  means : Means read spells

namespace Slot

/-- A slot that holds a string. -/
def string (name : String) (get : σ → Option String) (set : σ → String → σ) : Slot σ where
  name := name
  Value := String
  get := get
  set := set
  read _ := readStringValue
  spells document value := document = .string value
  means := readStringValue_means

/-- The field of a slot. -/
def field (slot : Slot σ) : Field σ :=
  .at slot.name slot.get slot.set slot.read

/-- The values under the name of a slot lead its value from one draft to another; a slot that holds
a value takes no other. -/
def Takes (slot : Slot σ) (draft : σ) (values : List Document) (final : σ) : Prop :=
  match slot.get draft with
  | none => Given slot.spells values (slot.get final)
  | some value => values = [] ∧ slot.get final = some value

variable {slot : Slot σ} {draft final : σ} {values : List Document}

theorem takes_of_get_eq_none (unset : slot.get draft = none) :
    slot.Takes draft values final ↔ Given slot.spells values (slot.get final) := by
  rw [Takes, unset]

theorem takes_of_get_eq_some {value : slot.Value} (set : slot.get draft = some value) :
    slot.Takes draft values final ↔ values = [] ∧ slot.get final = some value := by
  rw [Takes, set]

theorem takes_nil_iff : slot.Takes draft [] final ↔ slot.get final = slot.get draft := by
  cases held : slot.get draft with
  | none => rw [takes_of_get_eq_none held, given_nil_iff]
  | some value => simp [takes_of_get_eq_some held]

theorem takes_congr {other : σ} (same : slot.get draft = slot.get other) :
    slot.Takes draft values final ↔ slot.Takes other values final := by
  rw [Takes, Takes, same]

theorem takes_cons_iff (get_set : ∀ value, slot.get (slot.set draft value) = some value)
    (document : Document) :
    slot.Takes draft (document :: values) final ↔ slot.get draft = none ∧
      ∃ value, slot.spells document value ∧ slot.Takes (slot.set draft value) values final := by
  cases held : slot.get draft with
  | some value => simp [takes_of_get_eq_some held]
  | none => simp [takes_of_get_eq_none held, given_cons_iff, takes_of_get_eq_some (get_set _)]

/-- A member fills the slot of its name, if there is one, which must not be filled yet. -/
def Step (slots : List (Slot σ)) (draft : σ) (member : String × Document) (next : σ) : Prop :=
  match slots.find? (·.name == member.1) with
  | none => next = draft
  | some slot => slot.get draft = none ∧
      ∃ value, slot.spells member.2 value ∧ next = slot.set draft value

end Slot

/-- The slots make up a draft: their names differ, each keeps its value apart from the others, and
none holds a value at first. -/
structure SlotsOf (slots : List (Slot σ)) (blank : σ) : Prop where
  names_nodup : (slots.map Slot.name).Nodup
  get_set : ∀ slot ∈ slots, ∀ draft value, slot.get (slot.set draft value) = some value
  get_set_other : ∀ slot ∈ slots, ∀ other ∈ slots, other.name ≠ slot.name →
    ∀ draft value, other.get (slot.set draft value) = other.get draft
  get_blank : ∀ slot ∈ slots, slot.get blank = none
  ext : ∀ draft next, (∀ slot ∈ slots, slot.get draft = slot.get next) → draft = next

namespace SlotsOf

variable {slots : List (Slot σ)} {blank : σ}

theorem find?_eq_some (slotsOf : SlotsOf slots blank) {slot : Slot σ} (slot_mem : slot ∈ slots) :
    slots.find? (·.name == slot.name) = some slot := by
  cases found : slots.find? (·.name == slot.name) with
  | none =>
    have differs := List.find?_eq_none.mp found slot slot_mem
    simp at differs
  | some other =>
    have other_mem := List.mem_of_find?_eq_some found
    have same : other.name = slot.name := by simpa using List.find?_some found
    rw [List.inj_on_of_nodup_map slotsOf.names_nodup other_mem slot_mem same]

section Step

variable {draft final : σ} {member : String × Document}

/-- A member that no slot is named by changes nothing that a slot takes. -/
theorem takes_unnamed_iff (unnamed : slots.find? (·.name == member.1) = none) {slot : Slot σ}
    (slot_mem : slot ∈ slots) (members : List (String × Document)) :
    slot.Takes draft (valuesUnder slot.name (member :: members)) final ↔
      slot.Takes draft (valuesUnder slot.name members) final := by
  have differs : member.1 ≠ slot.name := fun same =>
    List.find?_eq_none.mp unnamed slot slot_mem (by simp [same])
  rw [valuesUnder_cons_of_ne differs]

/-- Filling one slot leaves what the others take as it was. -/
theorem takes_other_iff (slotsOf : SlotsOf slots blank) {slot filled : Slot σ}
    (slot_mem : slot ∈ slots) (filled_mem : filled ∈ slots) (name_eq : filled.name = member.1)
    (differs : slot ≠ filled) (value : filled.Value) (members : List (String × Document)) :
    slot.Takes draft (valuesUnder slot.name (member :: members)) final ↔
      slot.Takes (filled.set draft value) (valuesUnder slot.name members) final := by
  have name_ne : slot.name ≠ filled.name := fun same =>
    differs (List.inj_on_of_nodup_map slotsOf.names_nodup slot_mem filled_mem same)
  rw [valuesUnder_cons_of_ne fun same => name_ne (same.symm.trans name_eq.symm)]
  exact Slot.takes_congr
    (slotsOf.get_set_other filled filled_mem slot slot_mem name_ne draft value).symm

theorem takes_filled_iff (slotsOf : SlotsOf slots blank) {filled : Slot σ}
    (filled_mem : filled ∈ slots) (name_eq : filled.name = member.1)
    (members : List (String × Document)) :
    filled.Takes draft (valuesUnder filled.name (member :: members)) final ↔
      filled.get draft = none ∧ ∃ value, filled.spells member.2 value ∧
        filled.Takes (filled.set draft value) (valuesUnder filled.name members) final := by
  rw [valuesUnder_cons_of_eq name_eq.symm]
  exact Slot.takes_cons_iff (slotsOf.get_set filled filled_mem draft) member.2

/-- A step and what the slots take from there on is what they take from the start. -/
theorem exists_step_takes_iff (slotsOf : SlotsOf slots blank)
    (members : List (String × Document)) :
    (∃ next, Slot.Step slots draft member next ∧
        ∀ slot ∈ slots, slot.Takes next (valuesUnder slot.name members) final) ↔
      ∀ slot ∈ slots, slot.Takes draft (valuesUnder slot.name (member :: members)) final := by
  cases found : slots.find? (·.name == member.1) with
  | none =>
    simp only [Slot.Step, found, exists_eq_left]
    exact forall₂_congr fun slot slot_mem => (takes_unnamed_iff found slot_mem members).symm
  | some filled =>
    have filled_mem := List.mem_of_find?_eq_some found
    have name_eq : filled.name = member.1 := by simpa using List.find?_some found
    have filled_iff : filled.Takes draft (valuesUnder filled.name (member :: members)) final ↔ _ :=
      slotsOf.takes_filled_iff filled_mem name_eq members
    simp only [Slot.Step, found]
    constructor
    · rintro ⟨_, ⟨unset, value, spelled, rfl⟩, takes⟩ slot slot_mem
      by_cases same : slot = filled
      · subst same
        exact filled_iff.mpr ⟨unset, value, spelled, takes slot slot_mem⟩
      · exact (slotsOf.takes_other_iff slot_mem filled_mem name_eq same value members).mpr
          (takes slot slot_mem)
    · intro takes
      obtain ⟨unset, value, spelled, filled_takes⟩ := filled_iff.mp (takes filled filled_mem)
      refine ⟨_, ⟨unset, value, spelled, rfl⟩, fun slot slot_mem => ?_⟩
      by_cases same : slot = filled
      · subst same
        exact filled_takes
      · exact (slotsOf.takes_other_iff slot_mem filled_mem name_eq same value members).mp
          (takes slot slot_mem)

end Step

/-- The members of an object lead from one draft to another exactly when the values under the name
of each slot do. -/
theorem through_step_iff (slotsOf : SlotsOf slots blank) {draft final : σ}
    {members : List (String × Document)} :
    Through (Slot.Step slots) draft members final ↔
      ∀ slot ∈ slots, slot.Takes draft (valuesUnder slot.name members) final := by
  induction members generalizing draft with
  | nil =>
    rw [through_nil_iff]
    constructor
    · rintro rfl slot _
      exact Slot.takes_nil_iff.mpr rfl
    · intro takes
      exact slotsOf.ext final draft fun slot slot_mem =>
        Slot.takes_nil_iff.mp (takes slot slot_mem)
  | cons member members ih =>
    simp only [through_cons_iff, ih]
    exact slotsOf.exists_step_takes_iff members

/-- The slots behind a place stay empty while the slot at the place is filled. -/
theorem get_set_behind (slotsOf : SlotsOf slots blank) {slot : Slot σ} {behind : List (Slot σ)}
    (suffix : slot :: behind <:+ slots) {draft : σ}
    (unset : ∀ other ∈ slot :: behind, other.get draft = none) (value : slot.Value) :
    ∀ other ∈ behind, other.get (slot.set draft value) = none := by
  intro other other_mem
  have names_nodup := (suffix.map Slot.name).sublist.nodup slotsOf.names_nodup
  have name_ne : other.name ≠ slot.name := fun same =>
    (List.nodup_cons.mp names_nodup).1 (same ▸ List.mem_map_of_mem other_mem)
  rw [slotsOf.get_set_other slot (suffix.subset List.mem_cons_self) other
    (suffix.subset (List.mem_cons_of_mem slot other_mem)) name_ne]
  exact unset other (List.mem_cons_of_mem slot other_mem)

theorem step_iff_of_unset (slotsOf : SlotsOf slots blank) {slot : Slot σ} (slot_mem : slot ∈ slots)
    {draft : σ} (unset : slot.get draft = none) (document : Document) (next : σ) :
    Slot.Step slots draft (slot.name, document) next ↔
      ∃ value, slot.spells document value ∧ next = slot.set draft value := by
  simp [Slot.Step, slotsOf.find?_eq_some slot_mem, unset]

end SlotsOf

namespace Shape

variable {slots : List (Slot σ)} {blank : σ} {shape : Shape σ α}

/-- A member is read as a step to the next draft; a member that no field is named by is skipped. -/
theorem readField_agrees (fields_eq : shape.fields = slots.map Slot.field) (budget : Nat) :
    StepAgrees (readValue Document.assembly budget) (shape.readField budget) (Slot.Step slots) := by
  intro draft key text valueText document rest colon document_read next behind
  have found_eq : shape.fields.find? (·.name == key) =
      (slots.find? (·.name == key)).map Slot.field := by
    rw [fields_eq, List.find?_map]
    rfl
  rw [readField, found_eq, Slot.Step]
  cases slots.find? (·.name == key) with
  | none =>
    have skipped := skipValue_of_readValue document_read
    simp [colon, skipped, bind, Except.bind, eq_comm]
  | some slot =>
    have value_iff := slot.means budget document_read
    have isSet_eq : slot.field.isSet draft = (slot.get draft).isSome := rfl
    simp only [Option.map_some, isSet_eq]
    cases slot.get draft with
    | some value => simp
    | none =>
      simp only [Option.isSome_none, Bool.false_eq_true, if_false, true_and]
      constructor
      · intro read
        obtain ⟨_, same, read⟩ := exists_of_bind_eq_ok read
        obtain rfl := Except.ok.inj (same.symm.trans colon)
        obtain ⟨⟨value, after⟩, value_read, read⟩ := exists_of_bind_eq_ok read
        obtain ⟨spelled, rfl⟩ := (value_iff value after).mp value_read
        cases read
        exact ⟨⟨value, spelled, rfl⟩, rfl⟩
      · rintro ⟨⟨value, spelled, rfl⟩, rfl⟩
        have value_read := (value_iff value behind).mpr ⟨spelled, rfl⟩
        simp [Slot.field, Field.at, colon, value_read, bind, Except.bind]

theorem closeList_eq_ok_iff {text rest : List Char} :
    closeList text = .ok rest ↔ skipSpace text = ']' :: rest := by
  constructor
  · intro closed
    unfold closeList at closed
    split at closed
    · cases closed
    · rename_i space_eq
      split_ifs at closed with close
      · cases closed
        rw [space_eq, close]
      · split at closed <;> cases closed
  · intro space_eq
    simp [closeList, space_eq]

section InOrder

variable {budget : Nat} {first : Bool} {draft final : σ} {text entry rest behind : List Char}

theorem readInOrder_nil_eq_ok_iff :
    readInOrder budget [] first draft text = .ok (final, behind) ↔
      skipSpace text = ']' :: behind ∧ final = draft := by
  rw [readInOrder, bind_eq_ok_iff, ← closeList_eq_ok_iff]
  constructor
  · rintro ⟨_, closed, ⟨⟩⟩
    exact ⟨closed, rfl⟩
  · rintro ⟨closed, rfl⟩
    exact ⟨behind, closed, rfl⟩

theorem readInOrder_of_closed {field : Field σ} {fields : List (Field σ)}
    (next : nextItem first text = .ok (.closed rest)) :
    readInOrder budget (field :: fields) first draft text = .ok (draft, rest) := by
  rw [readInOrder, next]
  rfl

theorem readInOrder_of_entry_eq_ok_iff {slot : Slot σ} {fields : List (Field σ)}
    (next : nextItem first text = .ok (.entry entry)) :
    readInOrder budget (slot.field :: fields) first draft text = .ok (final, behind) ↔
      ∃ value after, slot.read budget entry = .ok (value, after) ∧
        readInOrder budget fields false (slot.set draft value) after = .ok (final, behind) := by
  rw [readInOrder, next]
  constructor
  · intro read
    obtain ⟨_, ⟨⟩, read⟩ := exists_of_bind_eq_ok read
    obtain ⟨_, field_read, others_read⟩ := exists_of_bind_eq_ok read
    obtain ⟨⟨value, after⟩, value_read, field_read⟩ := exists_of_bind_eq_ok field_read
    cases field_read
    exact ⟨value, after, value_read, others_read⟩
  · rintro ⟨value, after, value_read, others_read⟩
    simp [Slot.field, Field.at, value_read, others_read, bind, Except.bind]

/-- The items of a list fill the slots behind a place, one after the other. -/
theorem readInOrder_agrees (slotsOf : SlotsOf slots blank) {remaining : List (Slot σ)}
    (suffix : remaining <:+ slots) (unset : ∀ slot ∈ remaining, slot.get draft = none) {fuel : Nat}
    {items : List Document} (items_read : readItems (readValue Document.assembly budget) fuel first
      text = .ok (items, rest)) (final : σ) (behind : List Char) :
    readInOrder budget (remaining.map Slot.field) first draft text = .ok (final, behind) ↔
      (items.length ≤ remaining.length ∧
        Through (Slot.Step slots) draft ((remaining.map Slot.name).zip items) final) ∧
      behind = rest := by
  induction remaining generalizing draft fuel first text items with
  | nil =>
    rw [List.map_nil, readInOrder_nil_eq_ok_iff]
    cases itemsRead_of_readItems items_read with
    | closed next =>
      rw [skipSpace_of_nextItem_closed next]
      simp [through_nil_iff, and_comm, eq_comm]
    | entry next _ _ =>
      refine iff_of_false ?_ fun short => absurd short.1.1 (Nat.not_succ_le_zero _)
      exact fun closed => skipSpace_ne_of_nextItem_entry next closed.1
  | cons slot remaining ih =>
    rw [List.map_cons]
    cases itemsRead_of_readItems items_read with
    | closed next =>
      rw [readInOrder_of_closed next]
      simp [through_nil_iff, eq_comm]
    | @entry _ _ _ _ after document documents next head tail =>
      have value_iff := slot.means budget head
      have step_iff := slotsOf.step_iff_of_unset (suffix.subset List.mem_cons_self)
        (unset slot List.mem_cons_self) document
      have others_iff (value : slot.Value) := ih ((List.suffix_cons slot remaining).trans suffix)
        (slotsOf.get_set_behind suffix unset value) tail
      rw [readInOrder_of_entry_eq_ok_iff next, List.map_cons, List.zip_cons_cons, through_cons_iff]
      constructor
      · rintro ⟨value, _, value_read, others_read⟩
        obtain ⟨spelled, rfl⟩ := (value_iff value _).mp value_read
        obtain ⟨⟨short, through⟩, rfl⟩ := (others_iff value).mp others_read
        exact ⟨⟨Nat.succ_le_succ short, _, (step_iff _).mpr ⟨value, spelled, rfl⟩, through⟩, rfl⟩
      · rintro ⟨⟨short, _, stepped, through⟩, rfl⟩
        obtain ⟨value, spelled, rfl⟩ := (step_iff _).mp stepped
        exact ⟨value, after, (value_iff value after).mpr ⟨spelled, rfl⟩,
          (others_iff value).mpr ⟨⟨Nat.le_of_succ_le_succ short, through⟩, rfl⟩⟩

end InOrder

theorem finishDraft_eq_ok_iff {missing : String → Misfit} {draft : σ} {value : α} :
    shape.finishDraft missing draft = .ok value ↔ shape.finish draft = .ok value := by
  rw [finishDraft]
  cases shape.finish draft <;> simp

/-- A record is read when its draft is read and can be finished. -/
theorem finished_eq_ok_iff {drafted : Except Error (σ × List Char)} {missing : String → Misfit}
    {value : α} {behind : List Char} :
    (do
      let (draft, rest) ← drafted
      let value ← shape.finishDraft missing draft
      .ok (value, rest)) = .ok (value, behind) ↔
      ∃ draft, drafted = .ok (draft, behind) ∧ shape.finish draft = .ok value := by
  constructor
  · intro read
    obtain ⟨⟨draft, rest⟩, draft_read, read⟩ := exists_of_bind_eq_ok read
    obtain ⟨finished, finish_eq, read⟩ := exists_of_bind_eq_ok read
    cases read
    exact ⟨draft, draft_read, finishDraft_eq_ok_iff.mp finish_eq⟩
  · rintro ⟨draft, rfl, finish_eq⟩
    simp [finishDraft_eq_ok_iff.mpr finish_eq, bind, Except.bind]

/-- From the empty draft, each slot takes what the values under its name give it. -/
theorem through_blank_iff (slotsOf : SlotsOf slots blank) {members : List (String × Document)}
    {draft : σ} : Through (Slot.Step slots) blank members draft ↔
      ∀ slot ∈ slots, Given slot.spells (valuesUnder slot.name members) (slot.get draft) := by
  rw [slotsOf.through_step_iff]
  exact forall₂_congr fun slot slot_mem =>
    Slot.takes_of_get_eq_none (slotsOf.get_blank slot slot_mem)

/-- A record is read from what gives its fields a draft that can be finished. -/
theorem read_means (fields_eq : shape.fields = slots.map Slot.field)
    (slotsOf : SlotsOf slots shape.blank) :
    Means shape.read fun document value => ∃ members draft,
      document.membersFor? (slots.map Slot.name) = some members ∧
      (∀ slot ∈ slots, Given slot.spells (valuesUnder slot.name members) (slot.get draft)) ∧
      shape.finish draft = .ok value := by
  intro budget text document rest document_read value behind
  simp only [← through_blank_iff slotsOf]
  unfold read
  cases valueRead_of_readValue document_read with
  | scalar notList notObject _ =>
    split
    · rename_i inside opened
      exact absurd opened (notList inside)
    · rename_i inside opened
      exact absurd opened (notObject inside)
    · simp [wrongType_ne_ok, Document.membersFor?]
  | @list inner inside items opened items_read =>
    have draft_iff := readInOrder_agrees slotsOf List.suffix_rfl slotsOf.get_blank items_read
    simp only [opened, spend, fields_eq, Document.assembly_list, Document.membersFor?,
      List.length_map]
    refine finished_eq_ok_iff.trans ?_
    simp only [draft_iff]
    constructor
    · rintro ⟨draft, ⟨⟨short, through⟩, rfl⟩, finish_eq⟩
      exact ⟨⟨_, draft, if_pos short, through, finish_eq⟩, rfl⟩
    · rintro ⟨⟨members, draft, members_eq, through, finish_eq⟩, rfl⟩
      split at members_eq
      · rename_i short
        cases members_eq
        exact ⟨draft, ⟨⟨short, through⟩, rfl⟩, finish_eq⟩
      · cases members_eq
  | @object inner inside members opened members_read =>
    obtain ⟨same, same_eq, draft_iff⟩ :=
      readMembers_agrees (readField_agrees fields_eq inner) _ _ members_read
    rw [List.append_nil, List.reverse_inj] at same_eq
    subst same_eq
    simp only [opened, spend, Document.assembly_object, Document.membersFor?]
    refine finished_eq_ok_iff.trans ?_
    simp only [draft_iff]
    constructor
    · rintro ⟨draft, ⟨through, rfl⟩, finish_eq⟩
      exact ⟨⟨members, draft, rfl, through, finish_eq⟩, rfl⟩
    · rintro ⟨⟨_, draft, ⟨⟩, through, finish_eq⟩, rfl⟩
      exact ⟨draft, ⟨through, rfl⟩, finish_eq⟩

end Shape

end Json
end PolicyReview
