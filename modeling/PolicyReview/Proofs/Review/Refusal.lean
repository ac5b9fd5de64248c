import PolicyReview.Proofs.Review.Projection
import PolicyReview.Proofs.Review.Rendering
import PolicyReview.Proofs.Structured.Readers

/-!
# Refused metadata

Either all violations of a result are projected or the first whose metadata has no structured value
is to blame, and nothing behind it matters.  A word that is not finite is blamed before the depth of
the metadata is.  Where only the depth is wrong, the error tells the position of the first bracket
beyond the limit in the text of the metadata.
-/

namespace PolicyReview

/-- The metadata has a structured value. -/
def Encodes (metadata : DynamicMap) : Prop :=
  ∃ value, Structured.encodeMetadata metadata = .ok value

theorem encodes_iff_encodable {metadata : DynamicMap} : Encodes metadata ↔ Encodable metadata :=
  Structured.exists_encodeMetadata_eq_ok_iff

/-- The error blames metadata at a place: its first word that is not finite, if there is one, and
its text otherwise. -/
structure Blames (place : ViolationPlace) (metadata : DynamicMap) (error : ReviewError) :
    Prop where
  serialization : ∀ word,
    (Dynamic.map metadata).words.find? (fun word => !word.isFinite) = some word →
    error = .serialization place ⟨word⟩ ∧
      error.source? = some ("unsupported value: " ++ word.plainText)
  encoding : (Dynamic.map metadata).AllFinite → ∃ text source, error = .encoding place text source

theorem Refuses.blames {place : ViolationPlace} {metadata : DynamicMap} {error : ReviewError}
    (refuses : Refuses place metadata error) : Blames place metadata error := by
  cases refuses with
  | serialization word first =>
    constructor
    · intro other other_first
      rw [← Dynamic.firstNonFinite?_eq_find?, first] at other_first
      cases other_first
      exact ⟨rfl, rfl⟩
    · intro finite
      rw [(Dynamic.firstNonFinite?_eq_none_iff _).mpr finite] at first
      cases first
  | encoding text remaining finite =>
    constructor
    · intro word first
      rw [← Dynamic.firstNonFinite?_eq_find?,
        (Dynamic.firstNonFinite?_eq_none_iff _).mpr finite] at first
      cases first
    · exact fun _ => ⟨text, _, rfl⟩

namespace ConstraintViolation

/-- The result of the engine that a violation stands for. -/
def evalResult (violation : ConstraintViolation) : EvalResult :=
  ⟨violation.message, violation.metadata, violation.constraint⟩

theorem map_violationOf_evalResult (violations : List ConstraintViolation) :
    (violations.map evalResult).map ReviewResult.violationOf = violations := by
  rw [List.map_map]
  exact List.map_id' violations

end ConstraintViolation

namespace ReviewResult

/-- The violation at a position is the first whose metadata has no structured value. -/
structure FirstRefused (result : ReviewResult) (index : Nat) (culprit : ConstraintViolation) :
    Prop where
  at_index : result.violations[index]? = some culprit
  earlier : ∀ violation ∈ result.violations.take index, Encodes violation.metadata
  refused : ¬ Encodes culprit.metadata

variable {result other : ReviewResult} {index : Nat} {culprit : ConstraintViolation}

/-- Either all metadata has a structured value or there is a first that has none. -/
theorem encodes_or_firstRefused (result : ReviewResult) :
    (∀ violation ∈ result.violations, Encodes violation.metadata) ∨
      ∃ index culprit, result.FirstRefused index culprit := by
  rcases forall_or_first (fun violation => Encodes violation.metadata) result.violations with
    encodes | ⟨before, culprit, after, violations_eq, earlier, refused⟩
  · exact .inl encodes
  · refine .inr ⟨before.length, culprit, ?_, ?_, refused⟩
    · rw [violations_eq, List.getElem?_append_right (Nat.le_refl _), Nat.sub_self,
        List.getElem?_cons_zero]
    · rwa [violations_eq, List.take_left]

/-- What comes behind the first violation that is refused is no matter. -/
theorem FirstRefused.congr (first : result.FirstRefused index culprit)
    (same : other.violations.take (index + 1) = result.violations.take (index + 1)) :
    other.FirstRefused index culprit where
  at_index := by
    rw [← List.getElem?_take_of_lt (Nat.lt_succ_self index), same,
      List.getElem?_take_of_lt (Nat.lt_succ_self index), first.at_index]
  earlier := by
    have front_eq := congrArg (List.take index) same
    simp only [List.take_take, Nat.min_eq_left (Nat.le_succ index)] at front_eq
    rw [front_eq]
    exact first.earlier
  refused := first.refused

/-- Where all metadata has a structured value, all violations are projected in order. -/
theorem exists_toViolations_of_encodes
    (encodes : ∀ violation ∈ result.violations, Encodes violation.metadata) :
    ∃ violations, result.toViolations = .ok violations ∧
      List.Forall₂ (fun violation projected => ∃ metadata,
        Structured.encodeMetadata violation.metadata = .ok metadata ∧
          projected = ⟨violation.constraint.name, result.name, violation.message, metadata⟩)
        result.violations violations := by
  obtain ⟨violations, projected⟩ : ∃ violations,
      List.Forall₂ (Projects result.name)
        (result.violations.map ConstraintViolation.evalResult) violations := by
    apply exists_forall₂_projects
    rw [List.forall_mem_map]
    exact fun violation violation_mem => encodes_iff_encodable.mp (encodes violation violation_mem)
  have all : toViolations ⟨result.name, result.resource, result.reviewed,
      (result.violations.map ConstraintViolation.evalResult).map violationOf⟩ =
        .ok violations := toViolations_eq_ok projected
  rw [ConstraintViolation.map_violationOf_evalResult] at all
  exact ⟨violations, all, List.forall₂_map_left_iff.mp projected⟩

/-- The first violation that is refused is the error of all. -/
theorem FirstRefused.toViolations_eq_error {error : ReviewError}
    (first : result.FirstRefused index culprit)
    (refuses : Refuses ⟨result.name, culprit.constraint.name, index⟩ culprit.metadata error) :
    result.toViolations = .error error := by
  obtain ⟨index_lt, rfl⟩ := List.getElem?_eq_some_iff.mp first.at_index
  let before := (result.violations.take index).map ConstraintViolation.evalResult
  let after := (result.violations.drop (index + 1)).map ConstraintViolation.evalResult
  have results_eq : result.violations.map ConstraintViolation.evalResult =
      before ++ result.violations[index].evalResult :: after := by
    rw [← List.map_cons, ← List.drop_eq_getElem_cons index_lt, ← List.map_append,
      List.take_append_drop]
  have encodable : ∀ earlier ∈ before, Encodable earlier.metadata := by
    rw [List.forall_mem_map]
    exact fun violation violation_mem =>
      encodes_iff_encodable.mp (first.earlier violation violation_mem)
  have length_eq : before.length = index := by
    rw [List.length_map, List.length_take_of_le (Nat.le_of_lt index_lt)]
  have refused : toViolations ⟨result.name, result.resource, result.reviewed,
      (before ++ result.violations[index].evalResult :: after).map violationOf⟩ =
        .error error := ReviewResult.toViolations_eq_error encodable (by rwa [length_eq])
  rwa [← results_eq, ConstraintViolation.map_violationOf_evalResult] at refused

/-- A result has all its violations or none.  It has none where metadata has no structured value,
and the first such metadata is blamed at its place, whatever comes behind it. -/
theorem toViolations_all_or_first_refused (result : ReviewResult) :
    ((∀ violation ∈ result.violations, Encodes violation.metadata) ∧
      ∃ violations, result.toViolations = .ok violations ∧
        violations.length = result.violations.length ∧
        List.Forall₂ (fun violation projected => ∃ metadata,
          Structured.encodeMetadata violation.metadata = .ok metadata ∧
            projected = ⟨violation.constraint.name, result.name, violation.message, metadata⟩)
          result.violations violations) ∨
    ∃ index culprit error, result.FirstRefused index culprit ∧
      result.toViolations = .error error ∧
      Blames ⟨result.name, culprit.constraint.name, index⟩ culprit.metadata error ∧
      ∀ other : ReviewResult, other.name = result.name →
        other.violations.take (index + 1) = result.violations.take (index + 1) →
        other.toViolations = .error error := by
  rcases result.encodes_or_firstRefused with encodes | ⟨index, culprit, first⟩
  · obtain ⟨violations, projected, related⟩ := exists_toViolations_of_encodes encodes
    exact .inl ⟨encodes, violations, projected, related.length_eq.symm, related⟩
  · have notEncodable := encodes_iff_encodable.not.mp first.refused
    obtain ⟨error, refuses⟩ :=
      exists_refuses ⟨result.name, culprit.constraint.name, index⟩ notEncodable
    refine .inr ⟨index, culprit, error, first, first.toViolations_eq_error refuses,
      refuses.blames, fun other name_eq same => ?_⟩
    apply (first.congr same).toViolations_eq_error
    rwa [name_eq]

end ReviewResult

/-- Finite metadata that is too deep is refused with its canonical text at the first bracket with
which 128 are open. -/
theorem encoding_error_at_first_deep_bracket {metadata : DynamicMap}
    (finite : (Dynamic.map metadata).AllFinite) (deep : 128 ≤ (Dynamic.map metadata).depth) :
    ∃ text source front bracket back, (Dynamic.map metadata).text = .ok text ∧
      text.toList = front ++ bracket :: back ∧ Json.FirstReaches .outside 128 front bracket ∧
      source.messageIn text = "recursion limit exceeded at line 1 column " ++
        toString ((String.ofList front).utf8ByteSize + 1) ∧
      Structured.encodeMetadata metadata = .error (.read text source) ∧
      ∀ result index culprit, culprit.metadata = metadata →
        ReviewResult.FirstRefused result index culprit →
        result.toViolations =
          .error (.encoding ⟨result.name, culprit.constraint.name, index⟩ text source) := by
  obtain ⟨text, front, bracket, back, written, text_eq, reaches, refused⟩ :=
    Structured.exists_text_refused_of_limit_lt_depth finite deep
  refine ⟨text, _, front, bracket, back, written, text_eq, reaches,
    Json.Error.messageIn_tooDeep text_eq, Structured.encodeMetadata_of_refused written refused, ?_⟩
  rintro result index culprit rfl first
  exact first.toViolations_eq_error (.encoding text _ finite deep written refused)

/-- A name and a string with brackets in them, and behind these 127 lists. -/
def bracketedMetadata : DynamicMap :=
  [("[é", .string "\x7b"), ("z", (nestedLists 127).toDynamic)]

/-- Brackets in literals are not counted, and a character may take several bytes. -/
theorem encoding_error_of_bracketedMetadata :
    ∃ text source, source.messageIn text = "recursion limit exceeded at line 1 column 142" ∧
      ReviewResult.toViolations ⟨"bucket", [], [],
        [⟨"", [], ⟨"", "", "first"⟩⟩, ⟨"", bracketedMetadata, ⟨"", "", "second"⟩⟩]⟩ =
          .error (.encoding ⟨"bucket", "second", 1⟩ text source) := by
  let bracketed : Structured := .object [("[é", .string "\x7b"), ("z", nestedLists 127)]
  have image_eq : Structured.image? (.map bracketedMetadata) = some bracketed := by
    rw [← bracketed.image?_toDynamic, Structured.toDynamic_object]
    rfl
  have finite : (Dynamic.map bracketedMetadata).AllFinite :=
    Structured.exists_image?_iff.mp ⟨bracketed, image_eq⟩
  have deep : 128 ≤ (Dynamic.map bracketedMetadata).depth := by
    rw [← Structured.depth_eq_of_image? image_eq]
    decide +kernel
  obtain ⟨text, source, _, _, _, _, _, _, _, unread, refused⟩ :=
    encoding_error_at_first_deep_bracket finite deep
  -- The text has 274 bytes, and from the bracket that is one too many 133 are left.
  have overflow : bracketed.document.overflow? Json.nestingLimit [] = some 133 := by
    decide +kernel
  have read := bracketed.ofText_text_eq_build
  rw [overflow, Json.withinBudget] at read
  obtain ⟨rfl, rfl⟩ := EncodeError.read.inj (Except.error.inj (unread.symm.trans
    (Structured.encodeMetadata_of_refused (Structured.text_of_image? image_eq) read)))
  have message_eq : (Json.Error.tooDeep 133).messageIn bracketed.text =
      "recursion limit exceeded at line 1 column 142" := by
    have size_eq : bracketed.text.utf8ByteSize = 274 := by
      rw [Structured.text, Json.Document.text, Json.utf8ByteSize_ofList]
      decide +kernel
    simp only [Json.Error.messageIn, Json.Error.column?, size_eq]
    rfl
  refine ⟨_, _, message_eq,
    refused _ 1 ⟨"", bracketedMetadata, ⟨"", "", "second"⟩⟩ rfl ⟨rfl, ?_, ?_⟩⟩
  · rintro violation (_ | ⟨_, ⟨⟩⟩)
    exact encodes_iff_encodable.mpr (by decide)
  · rintro ⟨value, encoded⟩
    rw [unread] at encoded
    cases encoded

end PolicyReview
