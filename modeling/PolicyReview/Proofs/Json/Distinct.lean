import PolicyReview.Proofs.Entries
import PolicyReview.Proofs.Json.Slots

/-!
# Documents without repeated names

Where no object repeats a name, the members under a name are none or one, and a table that is made
of the members holds all of them.
-/

namespace PolicyReview

namespace Json

namespace Document

mutual

/-- No object repeats the name of a member. -/
def NamesDistinct : Document → Prop
  | .scalar _ => True
  | .list items => ItemsNamesDistinct items
  | .object members => (members.map (·.1)).Nodup ∧ MembersNamesDistinct members

/-- Names are distinct in every item of a list. -/
def ItemsNamesDistinct : List Document → Prop
  | [] => True
  | item :: items => item.NamesDistinct ∧ ItemsNamesDistinct items

/-- Names are distinct in the value of every member of an object. -/
def MembersNamesDistinct : List (String × Document) → Prop
  | [] => True
  | (_, value) :: members => value.NamesDistinct ∧ MembersNamesDistinct members

end

theorem namesDistinct_list_iff {items : List Document} :
    (list items).NamesDistinct ↔ ∀ item ∈ items, item.NamesDistinct := by
  rw [NamesDistinct]
  induction items with
  | nil => simp [ItemsNamesDistinct]
  | cons item items ih => rw [ItemsNamesDistinct, ih, List.forall_mem_cons]

theorem namesDistinct_object_iff {members : List (String × Document)} :
    (object members).NamesDistinct ↔
      (members.map (·.1)).Nodup ∧ ∀ member ∈ members, member.2.NamesDistinct := by
  rw [NamesDistinct, and_congr_right_iff]
  rintro -
  induction members with
  | nil => simp [MembersNamesDistinct]
  | cons member members ih =>
    obtain ⟨key, value⟩ := member
    rw [MembersNamesDistinct, ih, List.forall_mem_cons]

end Document

section Under

variable {members : List (String × Document)}

theorem valuesUnder_eq_nil_iff {name : String} :
    valuesUnder name members = [] ↔ name ∉ members.map (·.1) := by
  rw [List.eq_nil_iff_forall_not_mem]
  simp [mem_valuesUnder_iff]

/-- At most one member stands under a name. -/
theorem valuesUnder_of_nodup (names_nodup : (members.map (·.1)).Nodup) (name : String) :
    valuesUnder name members = [] ∨ ∃ document, valuesUnder name members = [document] := by
  induction members with
  | nil => exact .inl rfl
  | cons member members ih =>
    rw [List.map_cons, List.nodup_cons] at names_nodup
    by_cases same : member.1 = name
    · have none_behind : valuesUnder name members = [] :=
        valuesUnder_eq_nil_iff.mpr (same ▸ names_nodup.1)
      exact .inr ⟨member.2, by rw [valuesUnder_cons_of_eq same, none_behind]⟩
    · rw [valuesUnder_cons_of_ne same]
      exact ih names_nodup.2

/-- What stands alone under a name repeats no name either. -/
theorem Document.NamesDistinct.of_valuesUnder_eq
    (distinct : (Document.object members).NamesDistinct) {name : String} {document : Document}
    (once : valuesUnder name members = [document]) : document.NamesDistinct := by
  have document_mem : document ∈ valuesUnder name members := once ▸ List.mem_singleton_self document
  rw [mem_valuesUnder_iff] at document_mem
  exact (namesDistinct_object_iff.mp distinct).2 _ document_mem

end Under

end Json
end PolicyReview
