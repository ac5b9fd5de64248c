import PolicyReview.Proofs.Outcome
import PolicyReview.Proofs.Structured.Encoding
import PolicyReview.Review.Result

/-!
# Violations of a result

The violations of a result are one for each constraint that is not satisfied, in the same order, if
all metadata can be encoded.  Otherwise the first metadata that cannot be is the error, at its
place.
-/

namespace PolicyReview

/-- The metadata can be encoded: its words are finite and it is not too deep. -/
def Encodable (metadata : DynamicMap) : Prop :=
  (Dynamic.map metadata).AllFinite ∧ (Dynamic.map metadata).depth ≤ 127

instance (metadata : DynamicMap) : Decidable (Encodable metadata) :=
  inferInstanceAs (Decidable (_ ∧ _))

/-- Why metadata at a place is refused: the error names the first word that is not finite or, where
all words are finite, what is wrong with the text. -/
inductive Refuses (place : ViolationPlace) (metadata : DynamicMap) : ReviewError → Prop where
  | serialization (word : Binary64)
    (first : (Dynamic.map metadata).firstNonFinite? = some word) :
    Refuses place metadata (.serialization place ⟨word⟩)
  | encoding (text : String) (remaining : Nat) (finite : (Dynamic.map metadata).AllFinite)
    (deep : 127 < (Dynamic.map metadata).depth) (written : (Dynamic.map metadata).text = .ok text)
    (refused : Structured.ofText text = .error (.tooDeep remaining)) :
    Refuses place metadata (.encoding place text (.tooDeep remaining))

/-- The violation of a resource that a result of the engine is projected to. -/
def Projects (resource : String) (result : EvalResult) (violation : Violation) : Prop :=
  ∃ metadata, Structured.encodeMetadata result.metadata = .ok metadata ∧
    violation = ⟨result.constraint.name, resource, result.msg, metadata⟩

namespace ConstraintViolation

variable {resource : String}

theorem toViolation_of_projects {result : EvalResult} {violation : Violation}
    (projects : Projects resource result violation) (index : Nat) :
    (ReviewResult.violationOf result).toViolation resource index = .ok violation := by
  obtain ⟨metadata, metadata_eq, rfl⟩ := projects
  simp only [toViolation, ReviewResult.violationOf, metadata_eq]

theorem toViolation_of_refuses {result : EvalResult} {error : ReviewError} {index : Nat}
    (refuses : Refuses ⟨resource, result.constraint.name, index⟩ result.metadata error) :
    (ReviewResult.violationOf result).toViolation resource index = .error error := by
  cases refuses with
  | serialization word first =>
    simp only [toViolation, ReviewResult.violationOf,
      Structured.encodeMetadata_of_firstNonFinite? first]
  | encoding text remaining finite deep written refused =>
    simp only [toViolation, ReviewResult.violationOf,
      Structured.encodeMetadata_of_refused written refused]

/-- Results that can all be projected are followed by the outcome of the others. -/
theorem toViolationsFrom_append {before : List EvalResult} {violations : List Violation}
    (projected : List.Forall₂ (Projects resource) before violations) (index : Nat)
    (rest : List ConstraintViolation) :
    toViolationsFrom resource index (before.map ReviewResult.violationOf ++ rest) =
      (toViolationsFrom resource (index + before.length) rest).map (violations ++ ·) := by
  induction projected generalizing index with
  | nil =>
    simp only [List.map_nil, List.nil_append, List.length_nil, Nat.add_zero]
    cases toViolationsFrom resource index rest <;> rfl
  | @cons result violation before violations projects _ ih =>
    rw [List.map_cons, List.cons_append, toViolationsFrom, toViolation_of_projects projects, ih,
      List.length_cons, Nat.add_right_comm, Nat.add_assoc]
    cases toViolationsFrom resource (index + (before.length + 1)) rest <;> rfl

end ConstraintViolation

theorem exists_projects {result : EvalResult} (resource : String)
    (encodable : Encodable result.metadata) : ∃ violation, Projects resource result violation := by
  obtain ⟨metadata, metadata_eq⟩ := Structured.exists_encodeMetadata_eq_ok_iff.mpr encodable
  exact ⟨_, metadata, metadata_eq, rfl⟩

theorem exists_forall₂_projects {results : List EvalResult} (resource : String)
    (encodable : ∀ result ∈ results, Encodable result.metadata) :
    ∃ violations, List.Forall₂ (Projects resource) results violations :=
  exists_forall₂ fun result result_mem => exists_projects resource (encodable result result_mem)

/-- Metadata that cannot be encoded is refused for some reason. -/
theorem exists_refuses {metadata : DynamicMap} (place : ViolationPlace)
    (notEncodable : ¬ Encodable metadata) : ∃ error, Refuses place metadata error := by
  cases first : (Dynamic.map metadata).firstNonFinite? with
  | some word => exact ⟨_, .serialization word first⟩
  | none =>
    have finite := (Dynamic.firstNonFinite?_eq_none_iff _).mp first
    have deep : 127 < (Dynamic.map metadata).depth := by
      by_contra notDeep
      exact notEncodable ⟨finite, Nat.not_lt.mp notDeep⟩
    obtain ⟨text, _, _, _, written, _, _, refused⟩ :=
      Structured.exists_text_refused_of_limit_lt_depth finite deep
    exact ⟨_, .encoding text _ finite deep written refused⟩

namespace ReviewResult

/-- All results are projected in order. -/
theorem toViolations_eq_ok {name : String} {resource reviewed : DynamicMap}
    {results : List EvalResult} {violations : List Violation}
    (projected : List.Forall₂ (Projects name) results violations) :
    toViolations ⟨name, resource, reviewed, results.map violationOf⟩ = .ok violations := by
  have all := ConstraintViolation.toViolationsFrom_append projected 0 []
  rw [List.append_nil] at all
  rw [toViolations, all]
  simp [ConstraintViolation.toViolationsFrom, Except.map]

/-- The first result that is refused is the error of all. -/
theorem toViolations_eq_error {name : String} {resource reviewed : DynamicMap}
    {before after : List EvalResult} {result : EvalResult} {error : ReviewError}
    (encodable : ∀ earlier ∈ before, Encodable earlier.metadata)
    (refuses : Refuses ⟨name, result.constraint.name, before.length⟩ result.metadata error) :
    toViolations ⟨name, resource, reviewed, (before ++ result :: after).map violationOf⟩ =
      .error error := by
  obtain ⟨violations, projected⟩ := exists_forall₂_projects name encodable
  rw [toViolations, List.map_append, ConstraintViolation.toViolationsFrom_append projected,
    List.map_cons, Nat.zero_add, ConstraintViolation.toViolationsFrom,
    ConstraintViolation.toViolation_of_refuses refuses]
  rfl

end ReviewResult
end PolicyReview
