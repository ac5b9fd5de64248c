import PolicyReview.Proofs.Json.Reader
import PolicyReview.Proofs.Json.Homomorphism
import PolicyReview.Proofs.Json.Skip
import PolicyReview.Proofs.Json.Yields

/-!
# What documents spell

Every text that is read as a document is read by the other readers too, each of which gives back
what the document spells for it, or refuses the text.  The meaning of a reader is thus a relation
between documents and values, and it is put together from the meanings of the readers of the parts.
-/

namespace PolicyReview
namespace Json

variable {α σ : Type}

/-- Wherever `source` reads a document, the reader gives back exactly the values that the document
spells, and takes as much of the text. -/
def Agrees (source : Reader Document) (reader : Reader α) (spells : Document → α → Prop) : Prop :=
  ∀ ⦃text document rest⦄, source text = .ok (document, rest) →
    ∀ value behind, reader text = .ok (value, behind) ↔ spells document value ∧ behind = rest

/-- The reader gives back exactly the values that documents spell, within any budget. -/
def Means (reader : Nat → Reader α) (spells : Document → α → Prop) : Prop :=
  ∀ budget, Agrees (readValue Document.assembly budget) (reader budget) spells

theorem Means.congr {reader : Nat → Reader α} {spells other : Document → α → Prop}
    (means : Means reader spells) (same : ∀ document value, spells document value ↔
      other document value) : Means reader other :=
  fun budget _ document _ document_read value behind =>
    (means budget document_read value behind).trans (and_congr_left' (same document value))

/-- A whole text that is read as a document is read exactly as what the document spells. -/
theorem Means.readAll_iff {reader : Nat → Reader α} {spells : Document → α → Prop}
    (means : Means reader spells) {text : String} {document : Document}
    (text_read : Document.ofText text = .ok document) (value : α) :
    readAll (reader nestingLimit) text = .ok value ↔ spells document value := by
  obtain ⟨⟨document, rest⟩, document_read, ends⟩ := exists_of_bind_eq_ok text_read
  have value_iff := means nestingLimit document_read value
  dsimp only at ends
  split at ends
  · rename_i only_blanks
    cases ends
    constructor
    · intro read
      obtain ⟨⟨value, behind⟩, value_read, read⟩ := exists_of_bind_eq_ok read
      dsimp only at read
      split at read
      · cases read
        exact ((value_iff behind).mp value_read).1
      · cases read
    · intro spelled
      have value_read := (value_iff rest).mpr ⟨spelled, rfl⟩
      simp [readAll, value_read, only_blanks, bind, Except.bind]
  · cases ends

/-- The text of a document that is not too deep is read as what the document spells. -/
theorem Means.readAll_text {reader : Nat → Reader α} {spells : Document → α → Prop}
    (means : Means reader spells) {document : Document} (depth_le : document.depth ≤ nestingLimit)
    {value : α} (spelled : spells document value) :
    readAll (reader nestingLimit) document.text = .ok value :=
  (means.readAll_iff (Document.ofText_text depth_le) value).mpr spelled

theorem readValue_skipSpace (build : Assembly α) (budget : Nat) (text : List Char) :
    readValue build budget (skipSpace text) = readValue build budget text := by
  cases budget <;> simp only [readValue, readValueWith, skipSpace_idempotent]

@[simp]
theorem Document.assembly_scalar (value : Scalar) : assembly.scalar value = .scalar value := rfl

@[simp]
theorem Document.assembly_list (items : List Document) : assembly.list items = .list items := rfl

@[simp]
theorem Document.assembly_object (members : List (String × Document)) :
    assembly.object members = .object members := rfl

/-- Documents are built into the values of any assembly. -/
theorem Document.hom_ofDocument (build : Assembly α) :
    Document.assembly.Hom build build.ofDocument where
  scalar _ := rfl
  list items := congrArg build.list (build.ofItems_eq_map items)
  object members := congrArg build.object (build.ofMembers_eq_map members)

/-- What is built from a document is carried along a homomorphism. -/
theorem Assembly.Hom.map_ofDocument {β : Type} {source : Assembly α} {target : Assembly β}
    {f : α → β} (hom : source.Hom target f) (document : Document) :
    f (source.ofDocument document) = target.ofDocument document := by
  induction document with
  | scalar value => exact hom.scalar value
  | list items ih =>
    rw [ofDocument, ofDocument, hom.list, ofItems_eq_map, ofItems_eq_map, List.map_map]
    exact congrArg target.list (List.map_congr_left ih)
  | object members ih =>
    rw [ofDocument, ofDocument, hom.object, ofMembers_eq_map, ofMembers_eq_map, List.map_map]
    exact congrArg target.object (List.map_congr_left fun member member_mem =>
      congrArg (member.1, ·) (ih member member_mem))

/-- A value is read as what its assembly builds from the document. -/
theorem readValue_means (build : Assembly α) :
    Means (readValue build) fun document value => build.ofDocument document = value := by
  intro budget text document rest document_read value behind
  rw [readValue_map (Document.hom_ofDocument build), Reader.map, document_read]
  simp [Except.map, eq_comm]

/-- A string is read from the documents of strings. -/
theorem readStringValue_means :
    Means (fun _ => readStringValue) fun document value => document = .string value := by
  intro budget text document rest document_read value behind
  change readStringValue text = _ ↔ document = .string value ∧ behind = rest
  unfold readStringValue
  cases valueRead_of_readValue document_read with
  | list opened _ => simp [opened, wrongType_ne_ok, Document.string]
  | object opened _ => simp [opened, wrongType_ne_ok, Document.string]
  | @scalar _ found notList notObject scalar_read =>
    have found_read := scalarRead_of_read scalar_read
    split
    · rename_i quoted space_eq
      rw [space_eq] at found_read
      cases found_read with
      | string content => simp [content, Document.string, eq_comm]
      | number numeral _ => simp at numeral
    · rename_i notString
      refine iff_of_false wrongType_ne_ok ?_
      rintro ⟨found_eq, -⟩
      cases found_eq
      generalize skipSpace text = visible at found_read notString
      cases found_read with
      | string _ => exact notString _ rfl

section Loops

variable {source : Reader Document}

/-- The items of a list are read one by one. -/
theorem readItems_agrees {item : Reader α} {spells : Document → α → Prop}
    (agrees : Agrees source item spells) (fuel : Nat) (first : Bool) {text rest : List Char}
    {documents : List Document}
    (documents_read : readItems source fuel first text = .ok (documents, rest))
    (values : List α) (behind : List Char) :
    readItems item fuel first text = .ok (values, behind) ↔
      List.Forall₂ spells documents values ∧ behind = rest := by
  induction fuel generalizing first text documents values behind with
  | zero => cases documents_read
  | succ fuel ih =>
    cases itemsRead_of_readItems documents_read with
    | closed next =>
      rw [readItems, next]
      constructor
      · intro read
        cases read
        exact ⟨.nil, rfl⟩
      · rintro ⟨⟨⟩, rfl⟩
        rfl
    | @entry _ _ _ _ after document documents next head tail =>
      rw [readItems, next]
      constructor
      · intro read
        obtain ⟨_, ⟨⟩, read⟩ := exists_of_bind_eq_ok read
        obtain ⟨⟨value, afterValue⟩, value_read, read⟩ := exists_of_bind_eq_ok read
        obtain ⟨spelled, rfl⟩ := (agrees head value afterValue).mp value_read
        obtain ⟨⟨values, afterValues⟩, values_read, read⟩ := exists_of_bind_eq_ok read
        cases read
        obtain ⟨others_spelled, rfl⟩ := (ih false tail values behind).mp values_read
        exact ⟨.cons spelled others_spelled, rfl⟩
      · rintro ⟨all_spelled, rfl⟩
        cases all_spelled with
        | @cons _ value _ values spelled others_spelled =>
          have value_read := (agrees head value after).mpr ⟨spelled, rfl⟩
          have values_read := (ih false tail values behind).mpr ⟨others_spelled, rfl⟩
          simp [value_read, values_read, bind, Except.bind]

/-- The states that members lead through, one step for each of them. -/
inductive Through (step : σ → String × Document → σ → Prop) :
    σ → List (String × Document) → σ → Prop where
  | done (state : σ) : Through step state [] state
  | member {state next final : σ} {member : String × Document}
    {members : List (String × Document)} (head : step state member next)
    (tail : Through step next members final) : Through step state (member :: members) final

section Through

variable {step : σ → String × Document → σ → Prop} {state final : σ}

theorem through_nil_iff : Through step state [] final ↔ final = state := by
  constructor
  · rintro ⟨⟩
    rfl
  · rintro rfl
    exact .done _

theorem through_cons_iff {member : String × Document} {members : List (String × Document)} :
    Through step state (member :: members) final ↔
      ∃ next, step state member next ∧ Through step next members final := by
  constructor
  · rintro ⟨⟩
    exact ⟨_, ‹_›, ‹_›⟩
  · rintro ⟨next, head, tail⟩
    exact .member head tail

end Through

/-- Behind a colon where `source` reads a document, the reader of a member takes exactly the steps
for that document. -/
def StepAgrees (source : Reader Document) (member : σ → String → Reader σ)
    (step : σ → String × Document → σ → Prop) : Prop :=
  ∀ ⦃state key text valueText document rest⦄, afterColon text = .ok valueText →
    source valueText = .ok (document, rest) → ∀ next behind,
      member state key text = .ok (next, behind) ↔ step state (key, document) next ∧ behind = rest

/-- The members of an object are read one by one, each from the state that the members before it
lead to. -/
theorem readMembers_agrees {member : σ → String → Reader σ}
    {step : σ → String × Document → σ → Prop} (agrees : StepAgrees source member step)
    (fuel : Nat) (first : Bool) {text rest : List Char}
    {before result : List (String × Document)}
    (members_read : readMembers (readMember source) fuel first before text = .ok (result, rest)) :
    ∃ members, result = members.reverse ++ before ∧ ∀ state final behind,
      readMembers member fuel first state text = .ok (final, behind) ↔
        Through step state members final ∧ behind = rest := by
  induction fuel generalizing first text before with
  | zero => cases members_read
  | succ fuel ih =>
    cases membersRead_of_readMembers members_read with
    | closed next =>
      refine ⟨[], rfl, fun state final behind => ?_⟩
      rw [readMembers, next]
      constructor
      · intro read
        cases read
        exact ⟨.done state, rfl⟩
      · rintro ⟨⟨⟩, rfl⟩
        rfl
    | @entry _ _ _ content afterKey after key _ _ next key_read head tail =>
      obtain ⟨valueText, document, colon, document_read, rfl⟩ := readMember_eq_ok_iff.mp head
      obtain ⟨members, result_eq, others_iff⟩ := ih false tail
      refine ⟨(key, document) :: members, by simp [result_eq], fun state final behind => ?_⟩
      constructor
      · intro read
        cases membersRead_of_readMembers read with
        | closed other => cases next.symm.trans other
        | @entry _ _ _ _ _ _ _ _ _ other other_key other_head other_tail =>
          cases next.symm.trans other
          cases key_read.symm.trans other_key
          obtain ⟨stepped, rfl⟩ := (agrees colon document_read _ _).mp other_head
          obtain ⟨through, rfl⟩ := (others_iff _ final behind).mp other_tail
          exact ⟨.member stepped through, rfl⟩
      · rintro ⟨through, rfl⟩
        cases through with
        | @member _ reached _ _ _ stepped through =>
          have reached_read := (agrees colon document_read reached after).mpr ⟨stepped, rfl⟩
          have others_read := (others_iff reached final behind).mpr ⟨through, rfl⟩
          simp [readMembers, next, key_read, reached_read, others_read, bind, Except.bind]

end Loops

/-- A list is read from the documents of lists, item by item. -/
theorem readListOf_means {item : Nat → Reader α} {spells : Document → α → Prop}
    (means : Means item spells) :
    Means (readListOf item) fun document values =>
      ∃ items, document = .list items ∧ List.Forall₂ spells items values := by
  intro budget text document rest document_read values behind
  unfold readListOf
  cases valueRead_of_readValue document_read with
  | scalar notList notObject _ =>
    split
    · rename_i inside opened
      exact absurd opened (notList inside)
    · simp [wrongType_ne_ok]
  | object opened _ => simp [opened, wrongType_ne_ok]
  | @list inner inside items opened items_read =>
    have values_iff := readItems_agrees (means inner) _ _ items_read values behind
    simp only [opened, spend, bind, Except.bind, values_iff, Document.assembly_list,
      Document.list.injEq, exists_eq_left']

/-- The entries of a table that members spell, in the order of the members. -/
abbrev EntriesSpelled (spells : Document → α → Prop) (members : List (String × Document))
    (entries : List (String × α)) : Prop :=
  List.Forall₂ (fun member entry => entry.1 = member.1 ∧ spells member.2 entry.2) members entries

/-- Put a value that the document of a member spells under the name of the member. -/
def EntryStep (spells : Document → α → Prop) (table : Entries α) (member : String × Document)
    (next : Entries α) : Prop :=
  ∃ value, spells member.2 value ∧ next = table.insert member.1 value

theorem readEntry_agrees {source : Reader Document} {value : Reader α}
    {spells : Document → α → Prop} (agrees : Agrees source value spells) :
    StepAgrees source (readEntry value) (EntryStep spells) := by
  intro table key text valueText document rest colon document_read next behind
  have value_iff := agrees document_read
  constructor
  · intro read
    obtain ⟨_, same, read⟩ := exists_of_bind_eq_ok read
    obtain rfl := Except.ok.inj (same.symm.trans colon)
    obtain ⟨⟨found, after⟩, found_read, read⟩ := exists_of_bind_eq_ok read
    obtain ⟨spelled, rfl⟩ := (value_iff found after).mp found_read
    cases read
    exact ⟨⟨found, spelled, rfl⟩, rfl⟩
  · rintro ⟨⟨found, spelled, rfl⟩, rfl⟩
    have found_read := (value_iff found behind).mpr ⟨spelled, rfl⟩
    simp [readEntry, colon, found_read, bind, Except.bind]

theorem through_entryStep_iff {spells : Document → α → Prop} {members : List (String × Document)}
    {table final : Entries α} :
    Through (EntryStep spells) table members final ↔
    ∃ entries, EntriesSpelled spells members entries ∧
      final = entries.foldl (fun table entry => table.insert entry.1 entry.2) table := by
  induction members generalizing table with
  | nil => simp [through_nil_iff]
  | cons member members ih =>
    simp only [through_cons_iff, EntryStep, ih]
    constructor
    · rintro ⟨_, ⟨value, spelled, rfl⟩, entries, entries_spelled, rfl⟩
      exact ⟨(member.1, value) :: entries, .cons ⟨rfl, spelled⟩ entries_spelled, rfl⟩
    · rintro ⟨_, all_spelled, rfl⟩
      cases all_spelled with
      | @cons _ entry _ entries spelled entries_spelled =>
        refine ⟨_, ⟨entry.2, spelled.2, rfl⟩, entries, entries_spelled, ?_⟩
        rw [List.foldl_cons, spelled.1]

/-- A table is read from the documents of objects; of repeated keys the last one stays. -/
theorem readTableOf_means {value : Nat → Reader α} {spells : Document → α → Prop}
    (means : Means value spells) :
    Means (readTableOf value) fun document table => ∃ members entries,
      document = .object members ∧ EntriesSpelled spells members entries ∧
        table = Entries.ofMembers entries := by
  intro budget text document rest document_read table behind
  unfold readTableOf
  cases valueRead_of_readValue document_read with
  | scalar notList notObject _ =>
    split
    · rename_i inside opened
      exact absurd opened (notObject inside)
    · simp [wrongType_ne_ok]
  | list opened _ => simp [opened, wrongType_ne_ok]
  | @object inner inside members opened members_read =>
    obtain ⟨same, same_eq, table_iff⟩ :=
      readMembers_agrees (readEntry_agrees (means inner)) _ _ members_read
    rw [List.append_nil, List.reverse_inj] at same_eq
    subst same_eq
    simp [opened, spend, bind, Except.bind, table_iff, through_entryStep_iff, Entries.ofMembers]

end Json
end PolicyReview
