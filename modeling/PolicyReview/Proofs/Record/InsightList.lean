import PolicyReview.Proofs.Dynamic.Read
import PolicyReview.Proofs.Record.RoundTrip

/-!
# Lists of insights

A list of insights has a document exactly when all words in the contents are finite.  The document
is two levels deeper than the deepest content: one for the list and one for the record around the
content.  A reader of lists spends the same two levels, so it reads back just the lists whose
contents leave them.
-/

namespace PolicyReview

open Json (Document Yields)

namespace Insight

/-- The words in the content, in order of sorted keys and list positions. -/
def words (insight : Insight) : List Binary64 :=
  (Dynamic.map insight.content).words

/-- The error for an insight is the first word of its content that is not finite. -/
theorem document_eq_error_iff {insight : Insight} {error : NonFinite} :
    insight.document = .error error ↔
      insight.words.find? (fun word => !word.isFinite) = some error.word := by
  rw [words, ← Dynamic.firstNonFinite?_eq_find?, ← Dynamic.document_eq_error_iff]
  exact bind_ok_eq_error_iff

theorem exists_document_of_find?_eq_none {insight : Insight}
    (allFinite : insight.words.find? (fun word => !word.isFinite) = none) :
    ∃ document, insight.document = .ok document := by
  cases document_eq : insight.document with
  | ok document => exact ⟨document, rfl⟩
  | error error =>
    rw [document_eq_error_iff.mp document_eq] at allFinite
    cases allFinite

/-- The document of an insight is one level deeper than its content. -/
theorem depth_of_document {insight : Insight} {document : Document}
    (written : insight.document = .ok document) :
    document.depth = (Dynamic.map insight.content).depth + 1 := by
  obtain ⟨content, content_eq, document_eq⟩ := exists_of_bind_eq_ok written
  cases document_eq
  have strings_depth : Document.itemsDepth (insight.targetResources.map Document.string) = 0 :=
    Nat.le_zero.mp (Document.itemsDepth_le_iff.mpr (by simp [Document.string, Document.depth]))
  have content_depth : 0 < (Dynamic.map insight.content).depth := Nat.succ_pos _
  simp only [Document.depth, Document.membersDepth, Document.string, strings_depth,
    Dynamic.depth_of_document content_eq]
  omega

/-- The content that a draft holds, if any, fits the budget. -/
def Draft.Fits (budget : Nat) (draft : Draft) : Prop :=
  ∀ content, draft.content = some content → (Dynamic.map content).Fits budget

theorem keeps_fits {budget inner : Nat} (inner_le : inner ≤ budget) :
    shape.Keeps (Draft.Fits budget) inner := by
  intro field field_mem draft holds
  simp only [shape, List.mem_cons, List.not_mem_nil, or_false] at field_mem
  rcases field_mem with rfl | rfl | rfl | rfl | rfl
  · exact Json.Field.at_yields_of_forall fun _ => holds
  · exact Json.Field.at_yields_of_forall fun _ => holds
  · exact Json.Field.at_yields_of_forall fun _ => holds
  · refine Json.Field.at_yields (Dynamic.readMap_yields inner) ?_
    intro content fits other other_eq
    cases other_eq
    exact fits.mono inner_le
  · exact Json.Field.at_yields_of_forall fun _ => holds

/-- The record spends a level before its content is read. -/
theorem read_yields {budget level : Nat} (level_le : level ≤ budget + 1) :
    Yields (shape.read level) fun insight => (Dynamic.map insight.content).Fits budget := by
  refine Json.Shape.read_yields (Draft.Fits budget) ?blank ?fields ?finish
  case blank => exact nofun
  case fields =>
    exact fun inner inner_lt =>
      keeps_fits (Nat.le_of_lt_add_one (Nat.lt_of_lt_of_le inner_lt level_le))
  case finish =>
    intro _ draft insight holds finished
    obtain ⟨_, _, _, content_eq, _⟩ := finish_eq_ok_iff.mp finished
    exact holds _ content_eq

/-- Read a whole text as a list of insights. -/
def listOfText (text : String) : Except Json.Error (List Insight) :=
  Json.readAll (Json.readListOf (shape.read ·) Json.nestingLimit) text

theorem fits_of_listOfText {text : String} {insights : List Insight}
    (insights_read : listOfText text = .ok insights) :
    ∀ insight ∈ insights, (Dynamic.map insight.content).Fits 125 :=
  (Json.readListOf_yields fun _ level_lt =>
    read_yields (Nat.le_of_lt_add_one level_lt)).of_readAll insights_read

end Insight

variable {insights : List Insight}

/-- The error for a list of insights is the first word in their contents that is not finite. -/
theorem mapM_document_eq_error_iff {error : NonFinite} :
    insights.mapM Insight.document = .error error ↔
      (insights.flatMap Insight.words).find? (fun word => !word.isFinite) = some error.word := by
  induction insights with
  | nil => exact iff_of_false nofun nofun
  | cons insight insights ih =>
    rw [List.mapM_cons, List.flatMap_cons, List.find?_append]
    cases first : insight.words.find? (fun word => !word.isFinite) with
    | some word =>
      have refused : insight.document = .error ⟨word⟩ := Insight.document_eq_error_iff.mpr first
      rw [refused, Option.some_or]
      constructor
      · rintro ⟨⟩
        rfl
      · rintro ⟨⟩
        rfl
    | none =>
      obtain ⟨document, document_eq⟩ := Insight.exists_document_of_find?_eq_none first
      rw [document_eq, Option.none_or, ← ih]
      exact bind_ok_eq_error_iff

/-- The documents of a list of insights, as deep as the contents and a level around each. -/
theorem depth_list_le_iff {documents : List Document}
    (written : insights.mapM Insight.document = .ok documents) {budget : Nat} :
    (Document.list documents).depth ≤ budget + 2 ↔
      ∀ insight ∈ insights, (Dynamic.map insight.content).depth ≤ budget := by
  have each := mapM_eq_ok_iff.mp written
  rw [Document.depth, Nat.add_le_add_iff_right (n := 1)]
  clear written
  induction each with
  | nil => simp [Document.itemsDepth]
  | cons document_eq _ ih =>
    rw [Document.itemsDepth, Nat.max_le, List.forall_mem_cons,
      Insight.depth_of_document document_eq, Nat.add_le_add_iff_right]
    exact and_congr_right' ih

theorem forall₂_spelledBy_normal {documents : List Document}
    (ordered : ∀ insight ∈ insights, (Dynamic.map insight.content).Ordered)
    (written : insights.mapM Insight.document = .ok documents) :
    List.Forall₂ Insight.SpelledBy documents (insights.map Insight.normal) := by
  have each := mapM_eq_ok_iff.mp written
  clear written
  induction each with
  | nil => exact .nil
  | cons document_eq _ ih =>
    obtain ⟨head_ordered, tail_ordered⟩ := List.forall_mem_cons.mp ordered
    exact .cons (Insight.spelledBy_of_document head_ordered document_eq) (ih tail_ordered)

/-- A text of a list of insights is read as their normal forms exactly when the content of each
leaves the two levels around it. -/
theorem listOfText_eq_ok_iff {documents : List Document} {text : String}
    (ordered : ∀ insight ∈ insights, (Dynamic.map insight.content).Ordered)
    (written : insights.mapM Insight.document = .ok documents)
    (text_reads : (Document.list documents).depth ≤ Json.nestingLimit →
      Document.ofText text = .ok (.list documents)) :
    Insight.listOfText text = .ok (insights.map Insight.normal) ↔
      ∀ insight ∈ insights, (Dynamic.map insight.content).depth ≤ 125 := by
  constructor
  · intro insights_read insight insight_mem
    have fits := Insight.fits_of_listOfText insights_read insight.normal
      (List.mem_map_of_mem insight_mem)
    exact (Dynamic.depth_normal (.map insight.content)).symm.trans_le fits.depth_le
  · intro depth_le
    have document_read := text_reads ((depth_list_le_iff written).mpr depth_le)
    exact ((Json.readListOf_means Insight.read_means).readAll_iff document_read _).mpr
      ⟨documents, rfl, forall₂_spelledBy_normal ordered written⟩

end PolicyReview
