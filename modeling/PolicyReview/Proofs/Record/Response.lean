import PolicyReview.Proofs.Dynamic.Read
import PolicyReview.Record.Response

/-!
# Responses that are read

The metadata of a result that was read within a budget fits the budget, whether the record stands as
an object or as a list and whether the metadata is given, null or missing.  Responses that are put
together from texts therefore hold no metadata that is too deep to be encoded.
-/

namespace PolicyReview

open Json (Yields)

/-- The metadata of a result fits a budget of brackets. -/
def EvalResult.Fits (budget : Nat) (result : EvalResult) : Prop :=
  (Dynamic.map result.metadata).Fits budget

/-- The metadata of every result for a target fits a budget. -/
def Response.Fits (budget : Nat) (response : Response) : Prop :=
  ∀ result ∈ response.results, result.Fits budget

/-- The metadata of every result for every target fits a budget. -/
def Responses.Fits (budget : Nat) (responses : Responses) : Prop :=
  ∀ entry ∈ responses.byTarget, entry.2.Fits budget

namespace EvalResult

theorem fits_empty (budget : Nat) : (Dynamic.map []).Fits (budget + 1) :=
  Dynamic.fits_map List.Pairwise.nil (List.forall_mem_nil _)

theorem readMetadata_yields (budget : Nat) :
    Yields (readMetadata budget) fun metadata => (Dynamic.map metadata).Fits (budget + 1) := by
  intro text metadata rest read
  unfold readMetadata at read
  split at read
  · obtain ⟨rest, _, read⟩ := exists_of_bind_eq_ok read
    cases read
    exact fits_empty budget
  · exact (Dynamic.readMap_yields budget read).mono (Nat.le_add_right budget 1)

/-- The metadata that a draft holds, if any, fits the budget. -/
def Draft.Fits (budget : Nat) (draft : Draft) : Prop :=
  ∀ metadata, draft.metadata = some metadata → (Dynamic.map metadata).Fits budget

theorem keeps_fits {budget inner : Nat} (inner_lt : inner < budget) :
    shape.Keeps (Draft.Fits budget) inner := by
  intro field field_mem draft holds
  simp only [shape, List.mem_cons, List.not_mem_nil, or_false] at field_mem
  have kept (value : Option String) (constraint : Option ConstraintRef) :
      Draft.Fits budget ⟨value, draft.metadata, constraint⟩ := holds
  rcases field_mem with rfl | rfl | rfl
  · exact Json.Field.at_yields_of_forall fun _ => kept _ _
  · refine Json.Field.at_yields (readMetadata_yields inner) ?_
    intro metadata fits other other_eq
    cases other_eq
    exact fits.mono inner_lt
  · exact Json.Field.at_yields_of_forall fun _ => kept _ _

theorem metadata_of_finish {draft : Draft} {result : EvalResult}
    (finished : shape.finish draft = .ok result) : result.metadata = draft.metadata.getD [] := by
  obtain ⟨msg, metadata, constraint⟩ := draft
  cases msg with
  | none => cases finished
  | some msg =>
    cases constraint with
    | none => cases finished
    | some constraint =>
      cases finished
      rfl

/-- The metadata of a result that is read fits the budget. -/
theorem read_yields (budget : Nat) : Yields (read budget) (Fits budget) := by
  refine Json.Shape.read_yields (Draft.Fits budget) ?blank ?fields ?finish
  case blank =>
    intro metadata metadata_eq
    cases metadata_eq
  case fields => exact fun inner inner_lt => keeps_fits inner_lt
  case finish =>
    intro positive draft result holds finished
    rw [Fits, metadata_of_finish finished]
    cases metadata_eq : draft.metadata with
    -- The empty table is one level deep, and the bracket of the record has spent one.
    | none => exact (fits_empty 0).mono positive
    | some metadata => exact holds metadata metadata_eq

end EvalResult

namespace Response

/-- The results that a draft holds, if any, fit the budget. -/
def Draft.Fits (budget : Nat) (draft : Draft) : Prop :=
  ∀ results, draft.results = some results → ∀ result ∈ results, result.Fits budget

theorem keeps_fits {budget inner : Nat} (inner_le : inner ≤ budget + 1) :
    shape.Keeps (Draft.Fits budget) inner := by
  intro field field_mem draft holds
  simp only [shape, List.mem_cons, List.not_mem_nil, or_false] at field_mem
  rcases field_mem with rfl | rfl
  · exact Json.Field.at_yields_of_forall fun _ => holds
  · have result_yields (level : Nat) (level_lt : level < inner) :
        Yields (EvalResult.read level) (EvalResult.Fits budget) :=
      (EvalResult.read_yields level).imp fun result fits =>
        Dynamic.Fits.mono fits (Nat.le_of_lt_add_one (Nat.lt_of_lt_of_le level_lt inner_le))
    refine Json.Field.at_yields (Json.readListOf_yields result_yields) ?_
    intro results fits other other_eq
    cases other_eq
    exact fits

theorem results_of_finish {draft : Draft} {response : Response}
    (finished : shape.finish draft = .ok response) :
    response.results = draft.results.getD [] := by
  obtain ⟨target, results⟩ := draft
  cases target with
  | none => cases finished
  | some target =>
    cases finished
    rfl

/-- The record and its list spend two levels before the results. -/
theorem read_yields {budget level : Nat} (level_le : level ≤ budget + 2) :
    Yields (read level) (Fits budget) := by
  refine Json.Shape.read_yields (Draft.Fits budget) ?blank ?fields ?finish
  case blank =>
    intro results results_eq
    cases results_eq
  case fields =>
    exact fun inner inner_lt =>
      keeps_fits (Nat.le_of_lt_add_one (Nat.lt_of_lt_of_le inner_lt level_le))
  case finish =>
    intro _ draft response holds finished
    rw [Fits, results_of_finish finished]
    cases results_eq : draft.results with
    | none => exact List.forall_mem_nil _
    | some results => exact holds results results_eq

theorem fits_of_ofText {text : String} {response : Response}
    (response_read : ofText text = .ok response) : response.Fits 125 :=
  (read_yields (Nat.le_refl 127)).of_readAll response_read

end Response

namespace Responses

/-- Responses that are read are a sorted table of responses that are read. -/
theorem table_of_ofText {p : Response → Prop}
    (response_yields : ∀ level < Json.nestingLimit, Yields (Response.read level) p)
    {text : String} {responses : Responses} (responses_read : ofText text = .ok responses) :
    responses.byTarget.Ordered ∧ ∀ entry ∈ responses.byTarget, p entry.2 := by
  have shape_yields : Yields (shape.read Json.nestingLimit) fun responses =>
      responses.byTarget.Ordered ∧ ∀ entry ∈ responses.byTarget, p entry.2 := by
    refine Json.Shape.read_yields (fun draft => ∀ byTarget, draft.byTarget = some byTarget →
      byTarget.Ordered ∧ ∀ entry ∈ byTarget, p entry.2) ?blank ?fields ?finish
    case blank =>
      intro byTarget byTarget_eq
      cases byTarget_eq
    case fields =>
      intro inner inner_lt field field_mem draft holds
      simp only [shape, List.mem_singleton] at field_mem
      subst field_mem
      refine Json.Field.at_yields (Json.readTableOf_yields fun level level_lt =>
        response_yields level (Nat.lt_trans level_lt inner_lt)) ?_
      intro byTarget table other other_eq
      cases other_eq
      exact table
    case finish =>
      intro _ draft responses holds finished
      cases finished
      cases byTarget_eq : draft.byTarget with
      | none => exact ⟨List.Pairwise.nil, List.forall_mem_nil _⟩
      | some byTarget => exact holds byTarget byTarget_eq
  exact shape_yields.of_readAll responses_read

theorem fits_of_ofText {text : String} {responses : Responses}
    (responses_read : ofText text = .ok responses) : responses.Fits 125 :=
  (table_of_ofText (fun _ level_lt => Response.read_yields (Nat.le_of_lt level_lt))
    responses_read).2

/-- The table that is read is sorted, in whatever order its members stand in the text. -/
theorem ordered_of_ofText {text : String} {responses : Responses}
    (responses_read : ofText text = .ok responses) : responses.byTarget.Ordered :=
  (table_of_ofText (fun _ _ _ _ _ _ => trivial) responses_read).1

theorem fits_insert {responses : Responses} {response : Response} {budget : Nat}
    (fits : responses.Fits budget) (response_fits : response.Fits budget) :
    (responses.insert response).Fits budget := by
  intro entry entry_mem
  rcases Entries.mem_insert entry_mem with rfl | old
  · exact response_fits
  · exact fits entry old

/-- Responses that are read from a text, or put together from none or such responses by putting in
responses that are each read from a text of their own. -/
inductive FromTexts : Responses → Prop where
  | empty : FromTexts empty
  | ofText {text : String} {responses : Responses} (responses_read : ofText text = .ok responses) :
    FromTexts responses
  | insert {text : String} {responses : Responses} {response : Response}
    (fromTexts : FromTexts responses) (response_read : Response.ofText text = .ok response) :
    FromTexts (responses.insert response)

/-- Responses from texts hold no metadata that is too deep. -/
theorem FromTexts.fits {responses : Responses} (fromTexts : FromTexts responses) :
    responses.Fits 125 := by
  induction fromTexts with
  | empty => exact List.forall_mem_nil _
  | ofText responses_read => exact fits_of_ofText responses_read
  | insert _ response_read ih => exact fits_insert ih (Response.fits_of_ofText response_read)

theorem fits_of_target? {responses : Responses} {budget : Nat} (fits : responses.Fits budget)
    {target : String} {response : Response} (found : responses.target? target = some response) :
    response.Fits budget :=
  fits (target, response) (Entries.mem_of_find?_eq_some found)

end Responses
end PolicyReview
