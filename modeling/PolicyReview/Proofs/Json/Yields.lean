import PolicyReview.Json.Record
import PolicyReview.Proofs.Entries
import PolicyReview.Proofs.Json.Inversion

/-!
# What readers yield

A property of values that is passed on from parts to wholes holds of every value that is read, from
whatever text.  Lists, tables and records are read by loops, so a property of what has been gathered
so far is kept by each step and then by the loop.
-/

namespace PolicyReview
namespace Json

variable {α β σ : Type}

/-- Every value that is read has the property. -/
def Yields (reader : Reader α) (p : α → Prop) : Prop :=
  ∀ ⦃text value rest⦄, reader text = .ok (value, rest) → p value

theorem Yields.imp {reader : Reader α} {p q : α → Prop} (yields : Yields reader p)
    (imp : ∀ value, p value → q value) : Yields reader q :=
  fun _ value _ read => imp value (yields read)

theorem wrongType_ne_ok {expected : String} {text : List Char} {result : α} :
    wrongType expected text ≠ .ok result := by
  intro read
  unfold wrongType at read
  split at read
  · cases read
  · cases read
  · split at read <;> cases read

/-- A level that is spent leaves a smaller budget. -/
theorem lt_of_spend {budget inner : Nat} {text : List Char}
    (spent : spend budget text = .ok inner) : inner < budget := by
  cases budget with
  | zero => cases spent
  | succ budget =>
    cases spent
    exact Nat.lt_add_one _

theorem readItems_yields {item : Reader α} {p : α → Prop} (item_yields : Yields item p)
    (fuel : Nat) (first : Bool) :
    Yields (readItems item fuel first) fun values => ∀ value ∈ values, p value := by
  induction fuel generalizing first with
  | zero =>
    intro text values rest read
    cases read
  | succ fuel ih =>
    intro text values rest read
    cases itemsRead_of_readItems read with
    | closed next => exact List.forall_mem_nil p
    | entry next head tail => exact List.forall_mem_cons.mpr ⟨item_yields head, ih false tail⟩

/-- What each member keeps is kept by all of them. -/
theorem readMembers_yields {member : σ → String → Reader σ} {inv : σ → Prop}
    (member_yields : ∀ state key, inv state → Yields (member state key) inv) (fuel : Nat)
    (first : Bool) {state : σ} (holds : inv state) :
    Yields (readMembers member fuel first state) inv := by
  induction fuel generalizing first state with
  | zero =>
    intro text final rest read
    cases read
  | succ fuel ih =>
    intro text final rest read
    cases membersRead_of_readMembers read with
    | closed next => exact holds
    | entry next key_read head tail => exact ih false (member_yields state _ holds head) tail

theorem readMember_yields {value : Reader α} {p : α → Prop} (value_yields : Yields value p)
    {members : List (String × α)} (key : String) (holds : ∀ member ∈ members, p member.2) :
    Yields (readMember value members key) fun members => ∀ member ∈ members, p member.2 := by
  intro text result rest read
  obtain ⟨_, value, _, value_read, rfl⟩ := readMember_eq_ok_iff.mp read
  exact List.forall_mem_cons.mpr ⟨value_yields value_read, holds⟩

/-- A property of values by budget that scalars have and brackets pass on, with one level more. -/
structure Inherited (build : Assembly α) (p : Nat → α → Prop) : Prop where
  scalar (budget : Nat) (value : Scalar) : p budget (build.scalar value)
  list {budget : Nat} {items : List α} (parts : ∀ item ∈ items, p budget item) :
    p (budget + 1) (build.list items)
  object {budget : Nat} {members : List (String × α)}
    (parts : ∀ member ∈ members, p budget member.2) : p (budget + 1) (build.object members)

/-- Whatever is read within a budget has the property at the budget. -/
theorem readValue_yields {build : Assembly α} {p : Nat → α → Prop} (inherited : Inherited build p)
    (budget : Nat) : Yields (readValue build budget) (p budget) := by
  induction budget with
  | zero =>
    intro text value rest read
    cases valueRead_of_readValue read with
    | scalar _ _ _ => exact inherited.scalar 0 _
  | succ budget ih =>
    intro text value rest read
    cases valueRead_of_readValue read with
    | scalar _ _ _ => exact inherited.scalar (budget + 1) _
    | list _ items_read => exact inherited.list (readItems_yields ih _ _ items_read)
    | object _ members_read =>
      have parts := readMembers_yields (fun _ key holds => readMember_yields ih key holds) _ _
        (List.forall_mem_nil _) members_read
      exact inherited.object fun member member_mem => parts member (List.mem_reverse.mpr member_mem)

theorem readListOf_yields {item : Nat → Reader α} {p : α → Prop} {budget : Nat}
    (item_yields : ∀ inner < budget, Yields (item inner) p) :
    Yields (readListOf item budget) fun values => ∀ value ∈ values, p value := by
  intro text values rest read
  unfold readListOf at read
  split at read
  · obtain ⟨inner, spent, read⟩ := exists_of_bind_eq_ok read
    exact readItems_yields (item_yields inner (lt_of_spend spent)) _ _ read
  · exact absurd read wrongType_ne_ok

theorem readEntry_yields {value : Reader α} {p : α → Prop} (value_yields : Yields value p)
    (entries : Entries α) (key : String)
    (holds : entries.Ordered ∧ ∀ entry ∈ entries, p entry.2) :
    Yields (readEntry value entries key) fun entries =>
      entries.Ordered ∧ ∀ entry ∈ entries, p entry.2 := by
  intro text result rest read
  obtain ⟨text, _, read⟩ := exists_of_bind_eq_ok read
  obtain ⟨⟨value, rest⟩, value_read, read⟩ := exists_of_bind_eq_ok read
  cases read
  refine ⟨holds.1.insert key value, fun entry entry_mem => ?_⟩
  rcases Entries.mem_insert entry_mem with rfl | old
  · exact value_yields value_read
  · exact holds.2 entry old

/-- Tables that are read are sorted, whatever the order of their members. -/
theorem readTableOf_yields {value : Nat → Reader α} {p : α → Prop} {budget : Nat}
    (value_yields : ∀ inner < budget, Yields (value inner) p) :
    Yields (readTableOf value budget) fun entries =>
      entries.Ordered ∧ ∀ entry ∈ entries, p entry.2 := by
  intro text entries rest read
  unfold readTableOf at read
  split at read
  · obtain ⟨inner, spent, read⟩ := exists_of_bind_eq_ok read
    have keeps := readEntry_yields (value_yields inner (lt_of_spend spent))
    exact readMembers_yields keeps _ _ ⟨List.Pairwise.nil, List.forall_mem_nil _⟩ read
  · exact absurd read wrongType_ne_ok

theorem Field.at_yields {name : String} {get : σ → Option β} {set : σ → β → σ}
    {value : Nat → Reader β} {p : β → Prop} {inv : σ → Prop} {budget : Nat} {draft : σ}
    (value_yields : Yields (value budget) p) (keeps : ∀ value, p value → inv (set draft value)) :
    Yields ((Field.at name get set value).read budget draft) inv := by
  intro text result rest read
  obtain ⟨⟨value, rest⟩, value_read, read⟩ := exists_of_bind_eq_ok read
  cases read
  exact keeps value (value_yields value_read)

/-- A field that a property of drafts does not speak of. -/
theorem Field.at_yields_of_forall {name : String} {get : σ → Option β} {set : σ → β → σ}
    {value : Nat → Reader β} {inv : σ → Prop} {budget : Nat} {draft : σ}
    (keeps : ∀ value, inv (set draft value)) :
    Yields ((Field.at name get set value).read budget draft) inv :=
  at_yields (fun _ _ _ _ => trivial) fun value (_ : True) => keeps value

namespace Shape

variable {shape : Shape σ α} {inv : σ → Prop}

/-- Each field keeps the property of drafts when it is read within the budget. -/
def Keeps (shape : Shape σ α) (inv : σ → Prop) (budget : Nat) : Prop :=
  ∀ field ∈ shape.fields, ∀ draft, inv draft → Yields (field.read budget draft) inv

theorem readField_yields {budget : Nat} (keeps : shape.Keeps inv budget) (draft : σ)
    (key : String) (holds : inv draft) : Yields (shape.readField budget draft key) inv := by
  intro text result rest read
  unfold readField at read
  split at read
  · rename_i field found
    split at read
    · cases read
    · obtain ⟨text, _, read⟩ := exists_of_bind_eq_ok read
      exact keeps field (List.mem_of_find?_eq_some found) draft holds read
  · obtain ⟨text, _, read⟩ := exists_of_bind_eq_ok read
    obtain ⟨rest, _, read⟩ := exists_of_bind_eq_ok read
    cases read
    exact holds

theorem readInOrder_yields {budget : Nat} {fields : List (Field σ)}
    (keeps : ∀ field ∈ fields, ∀ draft, inv draft → Yields (field.read budget draft) inv)
    (first : Bool) {draft : σ} (holds : inv draft) :
    Yields (readInOrder budget fields first draft) inv := by
  induction fields generalizing first draft with
  | nil =>
    intro text result rest read
    obtain ⟨rest, _, read⟩ := exists_of_bind_eq_ok read
    cases read
    exact holds
  | cons field fields ih =>
    intro text result rest read
    rw [readInOrder] at read
    obtain ⟨next, _, read⟩ := exists_of_bind_eq_ok read
    cases next with
    | closed rest =>
      cases read
      exact holds
    | entry rest =>
      obtain ⟨⟨draft, rest⟩, field_read, read⟩ := exists_of_bind_eq_ok read
      exact ih (fun other other_mem => keeps other (List.mem_cons_of_mem _ other_mem)) false
        (keeps field List.mem_cons_self _ holds field_read) read

theorem finish_of_finishDraft {missing : String → Misfit} {draft : σ} {value : α}
    (finished : shape.finishDraft missing draft = .ok value) : shape.finish draft = .ok value := by
  unfold finishDraft at finished
  split at finished
  · rename_i finish_eq
    cases finished
    exact finish_eq
  · cases finished

/-- A record that is read in either form is finished from a draft that every field has kept. -/
theorem read_yields {p : α → Prop} {budget : Nat} (inv : σ → Prop) (blank : inv shape.blank)
    (keeps : ∀ inner < budget, shape.Keeps inv inner)
    (finish : 0 < budget → ∀ draft value, inv draft → shape.finish draft = .ok value → p value) :
    Yields (shape.read budget) p := by
  intro text value rest read
  unfold Shape.read at read
  split at read
  · obtain ⟨inner, spent, read⟩ := exists_of_bind_eq_ok read
    obtain ⟨⟨draft, rest⟩, fields_read, read⟩ := exists_of_bind_eq_ok read
    obtain ⟨value, finished, read⟩ := exists_of_bind_eq_ok read
    cases read
    have holds := readInOrder_yields (keeps inner (lt_of_spend spent)) true blank fields_read
    exact finish (Nat.zero_lt_of_lt (lt_of_spend spent)) draft _ holds
      (finish_of_finishDraft finished)
  · obtain ⟨inner, spent, read⟩ := exists_of_bind_eq_ok read
    obtain ⟨⟨draft, rest⟩, members_read, read⟩ := exists_of_bind_eq_ok read
    obtain ⟨value, finished, read⟩ := exists_of_bind_eq_ok read
    cases read
    have member_keeps := readField_yields (keeps inner (lt_of_spend spent))
    have holds := readMembers_yields member_keeps _ _ blank members_read
    exact finish (Nat.zero_lt_of_lt (lt_of_spend spent)) draft _ holds
      (finish_of_finishDraft finished)
  · exact absurd read wrongType_ne_ok

end Shape

/-- A whole text is read by the reader at its front. -/
theorem Yields.of_readAll {reader : Reader α} {p : α → Prop} (yields : Yields reader p)
    {text : String} {value : α} (read : readAll reader text = .ok value) : p value := by
  obtain ⟨⟨result, rest⟩, result_read, read⟩ := exists_of_bind_eq_ok read
  dsimp only at read
  split at read
  · cases read
    exact yields result_read
  · cases read

end Json
end PolicyReview
