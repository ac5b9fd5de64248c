import PolicyReview.Proofs.Dynamic.Document
import PolicyReview.Proofs.Event.Plain

/-!
# Integers from any source

A source may hand over a small integer that is not negative as a signed or as an unsigned one.  The
dynamic value is the same: whatever the events or the plain value that it comes from, it holds
unsigned integers only beyond the signed range.
-/

namespace PolicyReview

namespace Json.Number

/-- The signed integer that a number is, where it is one. -/
def asInt64? : Number → Option Int64
  | .natural value => if value.toNat ≤ 0x7FFFFFFFFFFFFFFF then some value.toInt64 else none
  | .negative value _ => some value
  | .float _ _ => none

/-- The unsigned integer that a number is, where it is one. -/
def asUInt64? : Number → Option UInt64
  | .natural value => some value
  | _ => none

/-- The word that a number is, where it is no integer. -/
def asWord? : Number → Option Binary64
  | .float word _ => some word
  | _ => none

end Json.Number

namespace Dynamic

/-- The normal form of a value is settled. -/
theorem settled_normal (value : Dynamic) : value.normal.Settled := by
  induction value with
  | null => exact List.forall_mem_nil _
  | bool value => exact List.forall_mem_nil _
  | int value => exact List.forall_mem_nil _
  | float word => exact List.forall_mem_nil _
  | string value => exact List.forall_mem_nil _
  | uint value =>
    rw [normal]
    split
    · exact List.forall_mem_nil _
    · rename_i large
      exact List.forall_mem_singleton.mpr (Nat.lt_of_not_le large)
  | list items ih =>
    rw [normal, settled_list_iff, itemsNormal_eq_map, List.forall_mem_map]
    exact ih
  | map entries ih =>
    rw [normal, settled_map_iff, entriesNormal_eq_map, List.forall_mem_map]
    exact ih

/-- A settled value is its own normal form, and no other value is. -/
theorem settled_iff_normal_eq_self {value : Dynamic} : value.Settled ↔ value.normal = value :=
  ⟨normal_eq_self, fun same => same ▸ settled_normal value⟩

/-- A value that is taken from events is settled. -/
theorem settled_of_ofEvent {event : Event} {value : Dynamic}
    (taken : ofEvent event = .ok value) : value.Settled := by
  induction event generalizing value with
  | unit | none | bool value | int value | float word | char value | string value
  | ownedString value =>
    cases taken
    exact List.forall_mem_nil _
  | wrapped content | wideInt value | wideUInt value | bytes value => cases taken
  | some content ih => exact ih taken
  | uint value =>
    cases taken
    rw [ofUInt64_eq_normal]
    exact settled_normal _
  | list items ih =>
    rw [ofEvent_list] at taken
    obtain ⟨values, values_eq, rfl⟩ := exists_of_map_eq_ok taken
    rw [settled_list_iff]
    exact forall_of_mapM_eq_ok (fun item item_mem _ => ih item item_mem) values_eq
  | map entries ih =>
    rw [ofEvent_map] at taken
    obtain ⟨members, members_eq, rfl⟩ := exists_of_map_eq_ok taken
    rw [settled_map_iff]
    intro entry entry_mem
    apply forall_of_mapM_eq_ok (P := fun member => member.2.Settled) _ members_eq entry
      (Entries.mem_of_mem_ofMembers entry_mem)
    exact fun entry entry_mem member made =>
      (ih entry entry_mem).2 (Event.member_eq_ok_iff.mp made).2

/-- A value that is converted from a plain value is settled. -/
theorem settled_ofJson (json : Json.Value) : (ofJson json).Settled := by
  obtain ⟨value, rfl⟩ := Structured.toJson_surjective json
  have normal_eq := Structured.toDynamic_of_image? value.image?_toDynamic
  exact settled_iff_normal_eq_self.mpr normal_eq.symm

end Dynamic

namespace Event

mutual

/-- The event with every integer that is not negative handed over as an unsigned one. -/
def asUnsigned : Event → Event
  | .int value => if 0 ≤ value then .uint value.toUInt64 else .int value
  | .some content => .some content.asUnsigned
  | .wrapped content => .wrapped content.asUnsigned
  | .list items => .list (itemsAsUnsigned items)
  | .map entries => .map (entriesAsUnsigned entries)
  | event => event

/-- The items of a sequence with such integers unsigned. -/
def itemsAsUnsigned : List Event → List Event
  | [] => []
  | item :: items => item.asUnsigned :: itemsAsUnsigned items

/-- The entries of a map with such integers unsigned, those in the keys included. -/
def entriesAsUnsigned : List (Event × Event) → List (Event × Event)
  | [] => []
  | (key, content) :: entries => (key.asUnsigned, content.asUnsigned) :: entriesAsUnsigned entries

end

theorem describe_toUInt64 {value : Int64} (nonneg : 0 ≤ value) :
    (uint value.toUInt64).describe = (int value).describe := by
  have toInt_eq : value.toInt = value.toUInt64.toNat := by
    rw [Int64.toNat_toUInt64_of_le nonneg, Int64.toNatClampNeg,
      Int.toNat_of_nonneg (Int64.le_iff_toInt_le.mp nonneg)]
  change "integer `" ++ toString value.toUInt64.toNat ++ "`" =
    "integer `" ++ toString value.toInt ++ "`"
  rw [toInt_eq]
  rfl

/-- No key is made of an integer, and the error shows the integer without its kind. -/
theorem key_asUnsigned (event : Event) : event.asUnsigned.key = event.key := by
  cases event with
  | int value =>
    rw [asUnsigned]
    split
    · rename_i nonneg
      exact congrArg (fun found => Except.error (EventError.wrongType found "a string"))
        (describe_toUInt64 nonneg)
    · rfl
  | _ => rfl

end Event

namespace Dynamic

theorem ofUInt64_toUInt64 {value : Int64} (nonneg : 0 ≤ value) :
    ofUInt64 value.toUInt64 = .int value := by
  have number_eq := ofNumber_numberOfInt value
  rwa [numberOfInt, dif_neg (Int64.not_lt.mpr nonneg)] at number_eq

/-- Whether such integers are handed over as signed or as unsigned ones makes no difference. -/
theorem ofEvent_asUnsigned (event : Event) : ofEvent event.asUnsigned = ofEvent event := by
  induction event with
  | int value =>
    rw [Event.asUnsigned]
    split
    · rename_i nonneg
      rw [ofEvent, ofEvent, ofUInt64_toUInt64 nonneg]
    · rfl
  | some content ih => exact ih
  | list items ih =>
    have items_eq : ofEvents (Event.itemsAsUnsigned items) = ofEvents items := by
      induction items with
      | nil => rfl
      | cons item items items_ih =>
        rw [Event.itemsAsUnsigned, ofEvents, ofEvents, ih item List.mem_cons_self,
          items_ih fun other other_mem => ih other (List.mem_cons_of_mem _ other_mem)]
    rw [Event.asUnsigned, ofEvent, ofEvent, items_eq]
  | map entries ih =>
    have entries_eq :
        ofEventEntries (Event.entriesAsUnsigned entries) = ofEventEntries entries := by
      induction entries with
      | nil => rfl
      | cons entry entries entries_ih =>
        obtain ⟨key, content⟩ := entry
        rw [Event.entriesAsUnsigned, ofEventEntries, ofEventEntries, Event.key_asUnsigned,
          (ih (key, content) List.mem_cons_self).2,
          entries_ih fun other other_mem => ih other (List.mem_cons_of_mem _ other_mem)]
    rw [Event.asUnsigned, ofEvent, ofEvent, entries_eq]
  | _ => rfl

/-- A number is converted by the first of three questions that it answers: whether it is a signed
integer, an unsigned one, or a word. -/
theorem ofJson_number (number : Json.Number) :
    ((number.asInt64?.map int).or (number.asUInt64?.map uint)).or (number.asWord?.map float) =
      some (ofJson (.scalar (.number number))) := by
  cases number with
  | natural value =>
    rw [Json.Number.asInt64?, ofJson, ofScalar, ofNumber, ofUInt64]
    by_cases small : value.toNat ≤ 0x7FFFFFFFFFFFFFFF
    · rw [if_pos small, if_pos (Nat.lt_add_one_of_le small)]
      rfl
    · rw [if_neg small, if_neg fun lt => small (Nat.le_of_lt_add_one lt)]
      rfl
  | negative value isNegative => rfl
  | float word isFinite => rfl

/-- Values from events and converted plain values are settled.  A plain value is converted to what
is taken from its events, and events that differ only in how they hand over integers that are not
negative give the same value, or the same error. -/
theorem settled_from_any_source :
    (∀ event value, ofEvent event = .ok value → value.Settled) ∧
    (∀ json, (ofJson json).Settled) ∧
    (∀ number : Json.Number,
      ((number.asInt64?.map int).or (number.asUInt64?.map uint)).or (number.asWord?.map float) =
        some (ofJson (.scalar (.number number)))) ∧
    (∀ json : Json.Value, json.Ordered → ofEvent (Event.ofJson json) = .ok (ofJson json)) ∧
    ∀ event other : Event, event.asUnsigned = other.asUnsigned → ofEvent event = ofEvent other := by
  refine ⟨fun _ _ => settled_of_ofEvent, settled_ofJson, ofJson_number, fun _ => ofEvent_ofJson,
    fun event other same => ?_⟩
  rw [← ofEvent_asUnsigned event, same, ofEvent_asUnsigned]

/-- Five is handed over in both ways, and the least integer beyond the signed range stays apart. -/
theorem settled_from_two_sources :
    ∃ value : Dynamic, value = .map [("count", .int 5), ("total", .uint 0x8000000000000000)] ∧
      ofEvent (.map [(.string "count", .int 5), (.string "total", .uint 0x8000000000000000)]) =
        .ok value ∧
      ofEvent (Event.ofJson (.object [("count", .scalar (.number (.natural 5))),
        ("total", .scalar (.number (.natural 0x8000000000000000)))])) = .ok value ∧
      value.Settled := by
  obtain ⟨settled, _, _, taken, alike⟩ := settled_from_any_source
  have ordered : (Json.Value.object [("count", .scalar (.number (.natural 5))),
      ("total", .scalar (.number (.natural 0x8000000000000000)))]).Ordered :=
    ⟨List.pairwise_pair.mpr (by decide), trivial, trivial, trivial⟩
  have plain_taken := taken _ ordered
  have same : ofEvent (.map [(.string "count", .int 5), (.string "total", .uint 0x8000000000000000)]) =
      ofEvent (.map [(.string "count", .uint 5), (.string "total", .uint 0x8000000000000000)]) :=
    alike _ _ rfl
  exact ⟨_, rfl, same.trans rfl, plain_taken, settled _ _ plain_taken⟩

end Dynamic
end PolicyReview
