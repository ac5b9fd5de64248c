import PolicyReview.Proofs.Json.Slots
import PolicyReview.Record.Response

/-!
# The grammar of responses

A text of responses is read exactly when its document spells responses: an object, or a list of its
fields in order, at each of three levels, with fields that are required, defaulted or may be null,
and other members of any shape.  What is read is what the document spells.
-/

namespace PolicyReview

open Json (Document EntriesSpelled Given Means Slot SlotsOf valuesUnder)

namespace Dynamic

theorem entriesSpelled_iff {members : List (String × Document)} {entries : DynamicMap} :
    EntriesSpelled (fun document value => assembly.ofDocument document = value) members entries ↔
      entries = assembly.ofMembers members := by
  have pointwise : (fun (member : String × Document) (entry : String × Dynamic) =>
      entry.1 = member.1 ∧ assembly.ofDocument member.2 = entry.2) =
        fun member entry => (member.1, assembly.ofDocument member.2) = entry := by
    funext member entry
    simp [Prod.ext_iff, eq_comm]
  rw [EntriesSpelled, pointwise, ← List.forall₂_map_left_iff (R := Eq), List.forall₂_eq_eq_eq,
    Json.Assembly.ofMembers_eq_map, eq_comm]

/-- A table is read from the documents of objects. -/
theorem readMap_means : Means readMap fun document entries => ∃ members,
    document = .object members ∧ entries = Entries.ofMembers (assembly.ofMembers members) := by
  refine Means.congr (Json.readTableOf_means (Json.readValue_means assembly))
    fun document entries => ?_
  constructor
  · rintro ⟨members, spelled, rfl, members_spelled, rfl⟩
    exact ⟨members, rfl, by rw [entriesSpelled_iff.mp members_spelled]⟩
  · rintro ⟨members, rfl, rfl⟩
    exact ⟨members, _, rfl, entriesSpelled_iff.mpr rfl, rfl⟩

end Dynamic

/-- A document spells a reference when the dynamic value that it is names a constraint. -/
def ConstraintRef.SpelledBy (document : Document) (reference : ConstraintRef) : Prop :=
  ofDynamic (Dynamic.assembly.ofDocument document) = .ok reference

/-- Any value is read first, and then asked for its reference. -/
theorem ConstraintRef.read_means : Means read SpelledBy := by
  intro budget text document rest document_read reference behind
  have value_read := (Json.readValue_means Dynamic.assembly budget document_read _ rest).mpr
    ⟨rfl, rfl⟩
  simp only [read, Dynamic.read, value_read, SpelledBy, bind, Except.bind]
  cases ofDynamic (Dynamic.assembly.ofDocument document) <;> simp [eq_comm]

namespace EvalResult

/-- Null spells the empty table, and an object spells the table of its members. -/
inductive MetadataSpelledBy : Document → DynamicMap → Prop where
  | null : MetadataSpelledBy (.scalar .null) []
  | object (members : List (String × Document)) :
    MetadataSpelledBy (.object members) (Entries.ofMembers (Dynamic.assembly.ofMembers members))

theorem readMetadata_means : Means readMetadata MetadataSpelledBy := by
  intro budget text document rest document_read metadata behind
  have spelled_iff : MetadataSpelledBy document metadata ↔
      document = .scalar .null ∧ metadata = [] ∨ ∃ members, document = .object members ∧
        metadata = Entries.ofMembers (Dynamic.assembly.ofMembers members) := by
    constructor
    · rintro (⟨⟩ | ⟨members⟩)
      · exact .inl ⟨rfl, rfl⟩
      · exact .inr ⟨members, rfl, rfl⟩
    · rintro (⟨rfl, rfl⟩ | ⟨members, rfl, rfl⟩)
      · exact .null
      · exact .object members
  have map_iff := Dynamic.readMap_means budget
    ((Json.readValue_skipSpace Document.assembly budget text).trans document_read) metadata behind
  unfold readMetadata
  rw [spelled_iff]
  split
  · rename_i letters space_eq
    cases Json.valueRead_of_readValue document_read with
    | list opened _ => cases opened.symm.trans space_eq
    | object opened _ => cases opened.symm.trans space_eq
    | scalar _ _ scalar_read =>
      have found_read := Json.scalarRead_of_read scalar_read
      rw [space_eq] at found_read
      cases found_read with
      | null letters_read => simp [letters_read, bind, Except.bind, eq_comm]
      | number numeral _ => simp at numeral
  · rename_i notNull
    rw [map_iff, or_iff_right]
    rintro ⟨document_eq, -⟩
    cases Json.valueRead_of_readValue document_read with
    | list _ _ => cases document_eq
    | object _ _ => cases document_eq
    | scalar _ _ scalar_read =>
      cases document_eq
      have found_read := Json.scalarRead_of_read scalar_read
      generalize Json.skipSpace text = visible at found_read notNull
      cases found_read with
      | null _ => exact notNull _ rfl

/-- The fields of a result with what documents spell for them. -/
def slots : List (Slot Draft) := [
  .string "msg" (·.msg) fun draft msg => { draft with msg := some msg },
  { name := "metadata"
    Value := DynamicMap
    get := (·.metadata)
    set := fun draft metadata => { draft with metadata := some metadata }
    read := readMetadata
    spells := MetadataSpelledBy
    means := readMetadata_means },
  { name := "constraint"
    Value := ConstraintRef
    get := (·.constraint)
    set := fun draft constraint => { draft with constraint := some constraint }
    read := ConstraintRef.read
    spells := ConstraintRef.SpelledBy
    means := ConstraintRef.read_means }]

theorem slotsOf_shape : SlotsOf slots shape.blank where
  names_nodup := by decide
  get_set := by simp [slots, Slot.string]
  get_set_other := by simp [slots, Slot.string]
  get_blank := by simp [slots, Slot.string, shape]
  ext := by
    rintro ⟨msg, metadata, constraint⟩ ⟨msg', metadata', constraint'⟩ same
    simpa [slots, Slot.string] using same

/-- A document spells a result: its message is a string, its metadata is a table or null and may be
missing, and its constraint is a reference. -/
def SpelledBy (document : Document) (result : EvalResult) : Prop :=
  ∃ members, document.membersFor? ["msg", "metadata", "constraint"] = some members ∧
    valuesUnder "msg" members = [.string result.msg] ∧
    (∃ metadata, Given MetadataSpelledBy (valuesUnder "metadata" members) metadata ∧
      result.metadata = metadata.getD []) ∧
    ∃ constraint, valuesUnder "constraint" members = [constraint] ∧
      ConstraintRef.SpelledBy constraint result.constraint

theorem finish_eq_ok_iff {draft : Draft} {result : EvalResult} :
    shape.finish draft = .ok result ↔ draft.msg = some result.msg ∧
      result.metadata = draft.metadata.getD [] ∧ draft.constraint = some result.constraint := by
  obtain ⟨msg, metadata, constraint⟩ := draft
  obtain ⟨resultMsg, resultMetadata, resultConstraint⟩ := result
  cases msg <;> cases constraint <;> simp [shape, eq_comm]

/-- A result is read exactly from the documents that spell it. -/
theorem read_means : Means read SpelledBy := by
  refine Means.congr (Json.Shape.read_means rfl slotsOf_shape) fun document result => ?_
  constructor
  · rintro ⟨members, draft, members_eq, given, finished⟩
    obtain ⟨msg_eq, metadata_eq, constraint_eq⟩ := finish_eq_ok_iff.mp finished
    simp only [slots, Slot.string, List.forall_mem_cons, msg_eq, constraint_eq] at given
    obtain ⟨msg_given, metadata_given, constraint_given, -⟩ := given
    obtain ⟨_, msg_values, rfl⟩ := Json.given_some_iff.mp msg_given
    exact ⟨members, members_eq, msg_values, ⟨_, metadata_given, metadata_eq⟩,
      Json.given_some_iff.mp constraint_given⟩
  · rintro ⟨members, members_eq, msg_eq, ⟨metadata, metadata_given, metadata_eq⟩, constraint,
      constraint_eq, spelled⟩
    refine ⟨members, ⟨some result.msg, metadata, some result.constraint⟩, members_eq, ?_,
      finish_eq_ok_iff.mpr ⟨rfl, metadata_eq, rfl⟩⟩
    simp [slots, Slot.string, msg_eq, metadata_given, constraint_eq, spelled]

end EvalResult

namespace Response

/-- A list spells the results that its items spell, in order. -/
def ResultsSpelledBy (document : Document) (results : List EvalResult) : Prop :=
  ∃ items, document = .list items ∧ List.Forall₂ EvalResult.SpelledBy items results

/-- The fields of a response with what documents spell for them. -/
def slots : List (Slot Draft) := [
  .string "target" (·.target) fun draft target => { draft with target := some target },
  { name := "results"
    Value := List EvalResult
    get := (·.results)
    set := fun draft results => { draft with results := some results }
    read := Json.readListOf EvalResult.read
    spells := ResultsSpelledBy
    means := Json.readListOf_means EvalResult.read_means }]

theorem slotsOf_shape : SlotsOf slots shape.blank where
  names_nodup := by decide
  get_set := by simp [slots, Slot.string]
  get_set_other := by simp [slots, Slot.string]
  get_blank := by simp [slots, Slot.string, shape]
  ext := by
    rintro ⟨target, results⟩ ⟨target', results'⟩ same
    simpa [slots, Slot.string] using same

/-- A document spells a response: its target is a string, and its results are a list of results and
may be missing. -/
def SpelledBy (document : Document) (response : Response) : Prop :=
  ∃ members, document.membersFor? ["target", "results"] = some members ∧
    valuesUnder "target" members = [.string response.target] ∧
    ∃ results, Given ResultsSpelledBy (valuesUnder "results" members) results ∧
      response.results = results.getD []

theorem finish_eq_ok_iff {draft : Draft} {response : Response} :
    shape.finish draft = .ok response ↔
      draft.target = some response.target ∧ response.results = draft.results.getD [] := by
  obtain ⟨target, results⟩ := draft
  obtain ⟨responseTarget, responseResults⟩ := response
  cases target <;> simp [shape, eq_comm]

/-- A response is read exactly from the documents that spell it. -/
theorem read_means : Means read SpelledBy := by
  refine Means.congr (Json.Shape.read_means rfl slotsOf_shape) fun document response => ?_
  constructor
  · rintro ⟨members, draft, members_eq, given, finished⟩
    obtain ⟨target_eq, results_eq⟩ := finish_eq_ok_iff.mp finished
    simp only [slots, Slot.string, List.forall_mem_cons, target_eq] at given
    obtain ⟨target_given, results_given, -⟩ := given
    obtain ⟨_, target_values, rfl⟩ := Json.given_some_iff.mp target_given
    exact ⟨members, members_eq, target_values, _, results_given, results_eq⟩
  · rintro ⟨members, members_eq, target_eq, results, results_given, results_eq⟩
    refine ⟨members, ⟨some response.target, results⟩, members_eq, ?_,
      finish_eq_ok_iff.mpr ⟨rfl, results_eq⟩⟩
    simp [slots, Slot.string, target_eq, results_given]

end Response

namespace Responses

/-- An object spells the table of the responses that its members spell, under their names. -/
def TableSpelledBy (document : Document) (table : Entries Response) : Prop :=
  ∃ members entries, document = .object members ∧
    EntriesSpelled Response.SpelledBy members entries ∧ table = Entries.ofMembers entries

/-- The field of responses with what documents spell for it. -/
def slots : List (Slot Draft) := [
  { name := "byTarget"
    Value := Entries Response
    get := (·.byTarget)
    set := fun _ byTarget => ⟨some byTarget⟩
    read := Json.readTableOf Response.read
    spells := TableSpelledBy
    means := Json.readTableOf_means Response.read_means }]

theorem slotsOf_shape : SlotsOf slots shape.blank where
  names_nodup := by decide
  get_set := by simp [slots]
  get_set_other := by simp [slots]
  get_blank := by simp [slots, shape]
  ext := by
    rintro ⟨byTarget⟩ ⟨byTarget'⟩ same
    simpa [slots] using same

/-- A document spells responses: their table holds responses and may be missing. -/
def SpelledBy (document : Document) (responses : Responses) : Prop :=
  ∃ members, document.membersFor? ["byTarget"] = some members ∧
    ∃ byTarget, Given TableSpelledBy (valuesUnder "byTarget" members) byTarget ∧
      responses.byTarget = byTarget.getD []

/-- Responses are read exactly from the documents that spell them. -/
theorem read_means : Means (shape.read ·) SpelledBy := by
  refine Means.congr (Json.Shape.read_means rfl slotsOf_shape) fun document responses => ?_
  constructor
  · rintro ⟨members, draft, members_eq, given, ⟨⟩⟩
    exact ⟨members, members_eq, draft.byTarget, given _ List.mem_cons_self, rfl⟩
  · rintro ⟨members, members_eq, byTarget, byTarget_given, byTarget_eq⟩
    refine ⟨members, ⟨byTarget⟩, members_eq, ?_, congrArg Except.ok ?_⟩
    · simpa [slots] using byTarget_given
    · rw [← byTarget_eq]

/-- A text whose brackets nest within the limit is read as responses exactly when its document
spells them. -/
theorem ofText_eq_ok_iff_spelledBy (text : String) (document : Document)
    (text_read : Document.ofText text = .ok document) (responses : Responses) :
    ofText text = .ok responses ↔ responses.SpelledBy document :=
  read_means.readAll_iff text_read responses

/-- A response as a list behind a member of no field, with a result as a list whose metadata is null
and another one whose metadata is missing and whose constraint is an object. -/
theorem ofText_of_listed_response :
    ofText ("\x7b\"other\":[[\"b\"],null],\"byTarget\":\x7b\"a\":[\"t\",[" ++
        "[\"m\",null,\x7b\"name\":\"n\"\x7d]," ++
        "\x7b\"constraint\":\x7b\"metadata\":\x7b\"name\":\"c\"\x7d\x7d,\"msg\":\"\"\x7d]]\x7d\x7d") =
      .ok ⟨[("a", ⟨"t", [⟨"m", [], ⟨"", "", "n"⟩⟩, ⟨"", [], ⟨"", "", "c"⟩⟩]⟩)]⟩ := by
  have text_eq : (Document.object [("other", .list [.list [.string "b"], .scalar .null]),
      ("byTarget", .object [("a", .list [.string "t", .list [
        .list [.string "m", .scalar .null, .object [("name", .string "n")]],
        .object [("constraint", .object [("metadata", .object [("name", .string "c")])]),
          ("msg", .string "")]]])])]).text =
      ("\x7b\"other\":[[\"b\"],null],\"byTarget\":\x7b\"a\":[\"t\",[" ++
        "[\"m\",null,\x7b\"name\":\"n\"\x7d]," ++
        "\x7b\"constraint\":\x7b\"metadata\":\x7b\"name\":\"c\"\x7d\x7d,\"msg\":\"\"\x7d]]\x7d\x7d") := by
    decide +kernel
  rw [← text_eq]
  refine (ofText_eq_ok_iff_spelledBy _ _ (Document.ofText_text (by decide)) _).mpr ?_
  have listed : EvalResult.SpelledBy
      (.list [.string "m", .scalar .null, .object [("name", .string "n")]])
      ⟨"m", [], ⟨"", "", "n"⟩⟩ :=
    ⟨_, rfl, rfl, ⟨some [], .once .null, rfl⟩, _, rfl, rfl⟩
  have object : EvalResult.SpelledBy
      (.object [("constraint", .object [("metadata", .object [("name", .string "c")])]),
        ("msg", .string "")]) ⟨"", [], ⟨"", "", "c"⟩⟩ :=
    ⟨_, rfl, rfl, ⟨none, .absent, rfl⟩, _, rfl, rfl⟩
  have results : Response.ResultsSpelledBy (.list [_, _]) _ :=
    ⟨_, rfl, .cons listed (.cons object .nil)⟩
  have response : Response.SpelledBy (.list [.string "t", .list [_, _]]) ⟨"t", _⟩ :=
    ⟨_, rfl, rfl, some _, .once results, rfl⟩
  exact ⟨_, rfl, some _, .once ⟨_, [("a", _)], rfl, .cons ⟨rfl, response⟩ .nil, rfl⟩, rfl⟩

end Responses
end PolicyReview
