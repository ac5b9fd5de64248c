import PolicyReview.Json.Document

/-!
# Documents by induction

Documents are trees, so laws about them go by induction over the parts of a list and the members of
an object.  An assembly turns a document into a value of its own type.
-/

namespace PolicyReview
namespace Json
namespace Document

/-- Induction over the parts of a document. -/
@[elab_as_elim, induction_eliminator]
theorem parts_induction {motive : Document → Prop}
    (scalar : ∀ value, motive (.scalar value))
    (list : ∀ items, (∀ item ∈ items, motive item) → motive (.list items))
    (object : ∀ members, (∀ member ∈ members, motive member.2) → motive (.object members))
    (document : Document) : motive document :=
  match document with
  | .scalar value => scalar value
  | .list items => list items fun item _ => parts_induction scalar list object item
  | .object members => object members fun (_, value) _ => parts_induction scalar list object value
decreasing_by
  · have := List.sizeOf_lt_of_mem ‹item ∈ items›
    simp only [Document.list.sizeOf_spec]
    omega
  · have := List.sizeOf_lt_of_mem ‹(_, value) ∈ members›
    simp only [Document.object.sizeOf_spec, Prod.mk.sizeOf_spec] at this ⊢
    omega

theorem itemsDepth_eq_foldr (items : List Document) :
    itemsDepth items = (items.map depth).foldr max 0 := by
  induction items with
  | nil => rfl
  | cons item items ih => rw [itemsDepth, ih, List.map_cons, List.foldr_cons]

theorem membersDepth_eq_foldr (members : List (String × Document)) :
    membersDepth members = (members.map (·.2.depth)).foldr max 0 := by
  induction members with
  | nil => rfl
  | cons member members ih => rw [membersDepth, ih, List.map_cons, List.foldr_cons]

theorem itemsDepth_append (items others : List Document) :
    itemsDepth (items ++ others) = max (itemsDepth items) (itemsDepth others) := by
  induction items with
  | nil => simp [itemsDepth]
  | cons item items ih => rw [List.cons_append, itemsDepth, ih, itemsDepth, Nat.max_assoc]

theorem membersDepth_append (members others : List (String × Document)) :
    membersDepth (members ++ others) = max (membersDepth members) (membersDepth others) := by
  induction members with
  | nil => simp [membersDepth]
  | cons member members ih => rw [List.cons_append, membersDepth, ih, membersDepth, Nat.max_assoc]

theorem itemsDepth_le_iff {items : List Document} {bound : Nat} :
    itemsDepth items ≤ bound ↔ ∀ item ∈ items, item.depth ≤ bound := by
  induction items with
  | nil => simp [itemsDepth]
  | cons item items ih => rw [itemsDepth, Nat.max_le, ih, List.forall_mem_cons]

theorem membersDepth_le_iff {members : List (String × Document)} {bound : Nat} :
    membersDepth members ≤ bound ↔ ∀ member ∈ members, member.2.depth ≤ bound := by
  induction members with
  | nil => simp [membersDepth]
  | cons member members ih =>
    obtain ⟨key, value⟩ := member
    rw [membersDepth, Nat.max_le, ih, List.forall_mem_cons]

theorem writeItems_append (items : List Document)
    (write_append : ∀ item ∈ items, ∀ rest, item.write rest = item.write [] ++ rest)
    (rest : List Char) : writeItems items rest = writeItems items [] ++ rest := by
  induction items with
  | nil => simp [writeItems]
  | cons item items ih =>
    have tail := ih fun other other_mem => write_append other (List.mem_cons_of_mem _ other_mem)
    have head := write_append item List.mem_cons_self
    rw [writeItems, writeItems, tail, head, head (writeItems items [])]
    simp

theorem writeString_append (content rest : List Char) :
    writeString content rest = writeString content [] ++ rest := by
  simp [writeString]

theorem writeMember_append {member : String × Document}
    (write_append : ∀ rest, member.2.write rest = member.2.write [] ++ rest) (rest : List Char) :
    writeMember member rest = writeMember member [] ++ rest := by
  obtain ⟨key, value⟩ := member
  rw [writeMember, writeMember, writeString_append, writeString_append _ (':' :: value.write []),
    write_append]
  simp

theorem writeMembers_append (members : List (String × Document))
    (write_append : ∀ member ∈ members, ∀ rest, member.2.write rest = member.2.write [] ++ rest)
    (rest : List Char) : writeMembers members rest = writeMembers members [] ++ rest := by
  induction members with
  | nil => simp [writeMembers]
  | cons member members ih =>
    have tail := ih fun other other_mem => write_append other (List.mem_cons_of_mem _ other_mem)
    have head := writeMember_append (write_append member List.mem_cons_self)
    rw [writeMembers, writeMembers, tail, head, head (writeMembers members [])]
    simp

theorem scalar_write_append (value : Scalar) (rest : List Char) :
    value.write rest = value.write [] ++ rest := by
  cases value with
  | null => rfl
  | bool value => cases value <;> rfl
  | number value => simp [Scalar.write]
  | string value => exact writeString_append _ _

/-- Writing in front of a text is writing and then the text. -/
theorem write_append (document : Document) (rest : List Char) :
    document.write rest = document.write [] ++ rest := by
  induction document generalizing rest with
  | scalar value =>
    rw [write, write]
    exact scalar_write_append value rest
  | list items ih =>
    cases items with
    | nil => simp [write]
    | cons item items =>
      have tail := writeItems_append items fun other other_mem =>
        ih other (List.mem_cons_of_mem _ other_mem)
      have head := ih item List.mem_cons_self
      rw [write, write, tail, tail [']'], head, head (writeItems items [] ++ [']'])]
      simp
  | object members ih =>
    cases members with
    | nil => simp [write]
    | cons member members =>
      have tail := writeMembers_append members fun other other_mem =>
        ih other (List.mem_cons_of_mem _ other_mem)
      have head := writeMember_append (ih member List.mem_cons_self)
      rw [write, write, tail, tail ['\x7d'], head, head (writeMembers members [] ++ ['\x7d'])]
      simp

end Document

namespace Assembly

variable {α : Type}

mutual

/-- The value that an assembly builds from a document. -/
def ofDocument (build : Assembly α) : Document → α
  | .scalar value => build.scalar value
  | .list items => build.list (ofItems build items)
  | .object members => build.object (ofMembers build members)

/-- The values that an assembly builds from the items of a list. -/
def ofItems (build : Assembly α) : List Document → List α
  | [] => []
  | item :: items => ofDocument build item :: ofItems build items

/-- The members that an assembly builds from the members of an object. -/
def ofMembers (build : Assembly α) : List (String × Document) → List (String × α)
  | [] => []
  | (key, value) :: members => (key, ofDocument build value) :: ofMembers build members

end

theorem ofItems_eq_map (build : Assembly α) (items : List Document) :
    build.ofItems items = items.map build.ofDocument := by
  induction items with
  | nil => rfl
  | cons item items ih => rw [ofItems, ih, List.map_cons]

theorem ofMembers_eq_map (build : Assembly α) (members : List (String × Document)) :
    build.ofMembers members = members.map fun member => (member.1, build.ofDocument member.2) := by
  induction members with
  | nil => rfl
  | cons member members ih => rw [ofMembers, ih, List.map_cons]

/-- A document is built by its own assembly. -/
theorem ofDocument_assembly (document : Document) :
    Document.assembly.ofDocument document = document := by
  induction document with
  | scalar value => rfl
  | list items ih =>
    rw [ofDocument, ofItems_eq_map, List.map_congr_left ih, List.map_id']
    rfl
  | object members ih =>
    have members_eq : Document.assembly.ofMembers members = members := by
      rw [ofMembers_eq_map]
      refine (List.map_congr_left fun member member_mem => ?_).trans (List.map_id' members)
      exact congrArg (member.1, ·) (ih member member_mem)
    rw [ofDocument, members_eq]
    rfl

end Assembly
end Json
end PolicyReview
