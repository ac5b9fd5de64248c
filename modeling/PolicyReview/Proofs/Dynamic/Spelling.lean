import PolicyReview.Proofs.Dynamic.Canonical
import PolicyReview.Proofs.Json.Tokens

/-!
# One value for all spellings

A document stands for one dynamic value: in the table of an object the last of the members with a
name stays, as it is.  Each text of the document is read as this value, and so is each text of a
document that differs in the order of members with different names.
-/

namespace PolicyReview

namespace Json.Document

/-- The documents differ in the order of members only: in each object, at any depth, the members
with a name come in the same order. -/
inductive Rearranged : Document → Document → Prop where
  | refl (document : Document) : Rearranged document document
  | trans {document middle other : Document} (first : Rearranged document middle)
    (second : Rearranged middle other) : Rearranged document other
  | reorder {members others : List (String × Document)}
    (same : ∀ name, members.filter (·.1 == name) = others.filter (·.1 == name)) :
    Rearranged (.object members) (.object others)
  | item (before : List Document) {item other : Document} (after : List Document)
    (inner : Rearranged item other) :
    Rearranged (.list (before ++ item :: after)) (.list (before ++ other :: after))
  | member (before : List (String × Document)) (name : String) {value other : Document}
    (after : List (String × Document)) (inner : Rearranged value other) :
    Rearranged (.object (before ++ (name, value) :: after))
      (.object (before ++ (name, other) :: after))

/-- Members with different names may come in any order. -/
theorem Rearranged.of_perm {members others : List (String × Document)}
    (perm : members.Perm others) (distinct : (members.map (·.1)).Nodup) :
    Rearranged (.object members) (.object others) := by
  refine .reorder fun name => ?_
  -- By exchanges of neighbours, of which at most one has the name.
  induction perm with
  | nil => rfl
  | cons member _ ih =>
    rw [List.filter_cons, List.filter_cons, ih (List.nodup_cons.mp distinct).2]
  | swap member other members =>
    have differs : other.1 ≠ member.1 := fun same => by
      simp [same] at distinct
    by_cases at_member : member.1 = name
    · have not_other : other.1 ≠ name := at_member ▸ differs
      simp [at_member, not_other]
    · simp [List.filter_cons, at_member]
  | trans first _ first_ih second_ih =>
    rw [first_ih distinct, second_ih ((first.map (·.1)).nodup_iff.mp distinct)]

theorem Rearranged.depth_le {document other : Document} (rearranged : Rearranged document other) :
    other.depth ≤ document.depth := by
  induction rearranged with
  | refl document => exact Nat.le_refl _
  | trans _ _ first_le second_le => exact Nat.le_trans second_le first_le
  | @reorder members others same =>
    have members_le := membersDepth_le_iff.mp (Nat.le_refl (membersDepth members))
    refine Nat.succ_le_succ (membersDepth_le_iff.mpr fun member member_mem => ?_)
    have found : member ∈ others.filter (·.1 == member.1) := by simp [member_mem]
    rw [← same] at found
    exact members_le member (List.mem_of_mem_filter found)
  | item before after _ inner_le =>
    rw [depth, depth, itemsDepth_append, itemsDepth_append, itemsDepth, itemsDepth]
    omega
  | member before name after _ inner_le =>
    rw [depth, depth, membersDepth_append, membersDepth_append, membersDepth, membersDepth]
    omega

/-- The same value is built from documents that differ in the order of members only. -/
theorem Rearranged.ofDocument_eq {document other : Document}
    (rearranged : Rearranged document other) :
    Dynamic.assembly.ofDocument document = Dynamic.assembly.ofDocument other := by
  induction rearranged with
  | refl document => rfl
  | trans _ _ first_eq second_eq => exact first_eq.trans second_eq
  | reorder same =>
    rw [Assembly.ofDocument, Assembly.ofDocument, Assembly.ofMembers_eq_map,
      Assembly.ofMembers_eq_map]
    refine congrArg Dynamic.map (Entries.ofMembers_eq_of_filter_eq fun name => ?_)
    rw [List.filter_map, List.filter_map]
    exact congrArg (List.map _) (same name)
  | item before after _ inner_eq =>
    rw [Assembly.ofDocument, Assembly.ofDocument, Assembly.ofItems_eq_map, Assembly.ofItems_eq_map,
      List.map_append, List.map_append, List.map_cons, List.map_cons, inner_eq]
  | member before name after _ inner_eq =>
    rw [Assembly.ofDocument, Assembly.ofDocument, Assembly.ofMembers_eq_map,
      Assembly.ofMembers_eq_map, List.map_append, List.map_append, List.map_cons, List.map_cons,
      inner_eq]

end Json.Document

namespace Dynamic

open Json (Document)

mutual

/-- The value that a document stands for: of the members with a name the last one stays. -/
def Denotes : Document → Dynamic → Prop
  | .scalar value, result => result = ofScalar value
  | .list items, result => ∃ values, ItemsDenote items values ∧ result = .list values
  | .object members, result => ∃ values table, MembersDenote members values ∧
      Entries.HoldsLast table values ∧ result = .map table

/-- Each item stands for the value at its place. -/
def ItemsDenote : List Document → List Dynamic → Prop
  | [], values => values = []
  | item :: items, values => ∃ value others, Denotes item value ∧ ItemsDenote items others ∧
      values = value :: others

/-- Each member stands for the value at its place under its name. -/
def MembersDenote : List (String × Document) → List (String × Dynamic) → Prop
  | [], values => values = []
  | (name, document) :: members, values => ∃ value others, Denotes document value ∧
      MembersDenote members others ∧ values = (name, value) :: others

end

/-- The document stands for the value that is built from it and for no other. -/
def DenotesBuilt (document : Document) : Prop :=
  ∀ value, Denotes document value ↔ value = assembly.ofDocument document

theorem itemsDenote_iff {items : List Document} (each : ∀ item ∈ items, DenotesBuilt item)
    (values : List Dynamic) :
    ItemsDenote items values ↔ values = items.map assembly.ofDocument := by
  induction items generalizing values with
  | nil => rfl
  | cons item items ih =>
    have item_iff := each item List.mem_cons_self
    have items_iff := ih fun other other_mem => each other (List.mem_cons_of_mem _ other_mem)
    simp [ItemsDenote, item_iff _, items_iff]

theorem membersDenote_iff {members : List (String × Document)}
    (each : ∀ member ∈ members, DenotesBuilt member.2) (values : List (String × Dynamic)) :
    MembersDenote members values ↔
      values = members.map fun member => (member.1, assembly.ofDocument member.2) := by
  induction members generalizing values with
  | nil => rfl
  | cons member members ih =>
    have member_iff := each member List.mem_cons_self
    have members_iff := ih fun other other_mem => each other (List.mem_cons_of_mem _ other_mem)
    simp [MembersDenote, member_iff _, members_iff]

theorem denotesBuilt (document : Document) : DenotesBuilt document := by
  induction document with
  | scalar scalar => exact fun _ => Iff.rfl
  | list items ih =>
    intro value
    simp [Denotes, itemsDenote_iff ih, Json.Assembly.ofDocument, Json.Assembly.ofItems_eq_map,
      assembly]
  | object members ih =>
    intro value
    simp [Denotes, membersDenote_iff ih, Entries.holdsLast_iff, Json.Assembly.ofDocument,
      Json.Assembly.ofMembers_eq_map, assembly]

/-- A document that is not too deep is read from each of its texts as what it stands for. -/
theorem ofText_of_spelledAs {document : Document} (depth_le : document.depth ≤ Json.nestingLimit)
    {text : String} (spelled : document.SpelledAs text) :
    ofText text = .ok (assembly.ofDocument document) := by
  have document_read := Document.ofText_of_spelledAs depth_le spelled
  exact ((Json.readValue_means assembly).readAll_iff document_read _).mpr rfl

/-- A document of at most 127 levels stands for one value, and the value has a text.  Whatever the
order of members with different names, the blanks between the tokens, the literals of the numbers
and the escapes of the characters: the text is read as the value, and its canonical text is the text
of the value. -/
theorem ofText_of_any_spelling (document : Document) (depth_le : document.depth ≤ 127) :
    ∃ value canonical, (∀ other, Denotes document other ↔ other = value) ∧
      value.text = .ok canonical ∧
      ∀ arranged, document.Rearranged arranged → ∀ text, arranged.SpelledAs text →
        ofText text = .ok value ∧ canonicalText? text = some canonical := by
  have document_read : ofText document.text = .ok (assembly.ofDocument document) :=
    (Json.readValue_means assembly).readAll_text depth_le rfl
  obtain ⟨image, _, written, _⟩ := exists_text_of_ofText document_read
  refine ⟨_, image.text, denotesBuilt document, written, ?_⟩
  intro arranged rearranged text spelled
  have text_read := ofText_of_spelledAs (Nat.le_trans rearranged.depth_le depth_le) spelled
  rw [← rearranged.ofDocument_eq] at text_read
  exact ⟨text_read, canonicalText?_eq_some text_read written⟩

/-- Two members change places, a blank stands in front of a colon, and a name is written as a
surrogate pair. -/
theorem ofText_of_any_spelling_of_two_members :
    ∃ value, ofText "\x7b\"😀\":true,\"b\":null\x7d" = .ok value ∧
      ofText "\x7b\"b\" :null,\"\\uD83d\\uDE00\":true\x7d" = .ok value := by
  have b_spelled : Json.ContentSpelled "b".toList ['b'] :=
    .cons (.raw (by decide) (by decide) (by decide)) .nil
  have pair_spelled : Json.ContentSpelled "😀".toList
      ['\\', 'u', 'D', '8', '3', 'd', '\\', 'u', 'D', 'E', '0', '0'] := by
    rw [show "😀".toList = ['😀'] by decide]
    exact .cons (@Json.CharSpelled.pair '😀' ['D', '8', '3', 'd'] ['D', 'E', '0', '0'] (by decide)
      (by decide) (by decide)) .nil
  obtain ⟨value, _, _, _, reads⟩ := ofText_of_any_spelling
    (.object [("😀", .scalar (.bool true)), ("b", .scalar .null)]) (by decide)
  refine ⟨value, (reads _ (.refl _) _ (Document.spelledAs_text (by decide))).1,
    (reads _ (.of_perm (List.Perm.swap _ _ _) (by decide)) _ ?_).1⟩
  rw [Document.SpelledAs, show "\x7b\"b\" :null,\"\\uD83d\\uDE00\":true\x7d".toList =
    ['\x7b', '"', 'b', '"', ' ', ':', 'n', 'u', 'l', 'l', ',', '"', '\\', 'u', 'D', '8', '3', 'd',
      '\\', 'u', 'D', 'E', '0', '0', '"', ':', 't', 'r', 'u', 'e', '\x7d'] by decide]
  exact .cons_piece (.mark .openObject) rfl (.cons_piece (.string b_spelled) rfl
    (.cons_piece (.mark .colon) rfl (.cons_piece .null rfl
      (.cons_piece (.mark .comma) rfl (.cons_piece (.string pair_spelled) rfl
        (.cons_piece (.mark .colon) rfl (.cons_piece .true rfl
          (.cons_piece (.mark .closeObject) rfl (.nil (List.forall_mem_nil _))))))))))

end Dynamic
end PolicyReview
