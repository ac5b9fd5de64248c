import PolicyReview.Proofs.Review.Decision
import PolicyReview.Proofs.Review.Workers

/-!
# The log of reviews

The log of a review shows how far the review has come, and the log of several reviews shows in
order what each of them logs alone and which of them failed, and why.  A single worker, however it
divides its requests, writes this log entry by entry.
-/

namespace PolicyReview
namespace LogEntry

/-- The kind, the level and the fields of an entry. -/
structure Shown where
  kind : Kind
  level? : Option String
  fields : List (String × Field)

/-- What an entry shows. -/
def shown (entry : LogEntry) : Shown :=
  ⟨entry.kind, entry.level?, entry.fields⟩

/-- An event of a level, with its message and other fields. -/
def Shown.event (level message : String) (fields : List (String × Field)) : Shown :=
  ⟨.event, some level, ("message", .text message) :: fields⟩

end LogEntry

namespace Reviewer

open LogEntry (Shown)

/-- The number of results of the engine for the target of a request. -/
def engineResults (request : ReviewRequest) : Nat :=
  match request.responses.byTarget.find? request.target with
  | some response => response.results.length
  | none => 0

/-- The record of the name, once the result is built. -/
def shownRecord : Except ReviewError ReviewResult → List Shown
  | .ok result => [⟨.record, none, [("resource", .text result.name)]⟩]
  | .error _ => []

/-- The event of a review that is done, with the number of its violations and of its insights. -/
def shownSuccess (count : Nat) : ReviewOutcome → List Shown
  | .ok output => [.event "DEBUG" "reviewed resource" [("resource", .text output.result.name),
      ("violations", .count count), ("insights", .count count)]]
  | .error _ => []

/-- The event of a review among several that failed. -/
def shownFailure (index : Nat) : ReviewOutcome → List Shown
  | .ok _ => []
  | .error failure => [.event "WARN" "review failed" [("index", .count index),
      ("error", .text (": ".intercalate failure.chain))]]

variable {reviewer : Reviewer}

theorem result_of_project_eq_ok {result : ReviewResult} {output : ReviewOutput}
    (projected : reviewer.project result = .ok output) : output.result = result := by
  unfold project at projected
  split at projected <;> cases projected
  rfl

theorem lengths_eq_engineResults {request : ReviewRequest} {output : ReviewOutput}
    (reviewed : reviewer.review request = .ok output) :
    output.violations.length = engineResults request ∧
      output.insights.length = engineResults request := by
  obtain ⟨response, present, violations_length, insights_length⟩ := lengths_of_review_ok reviewed
  rw [engineResults, present]
  exact ⟨violations_length, insights_length⟩

/-- A review opens a span, records the name if the result is built, and tells its success with as
many violations and insights as the engine has results. -/
theorem shown_log (reviewer : Reviewer) (request : ReviewRequest) :
    (reviewer.log request).map LogEntry.shown =
      ⟨.span, some "DEBUG", [("target", .text request.target)]⟩ ::
        (shownRecord (reviewer.built request) ++
          shownSuccess (engineResults request) (reviewer.review request)) := by
  cases built_eq : reviewer.built request with
  | error error =>
    rw [log, run_of_refused (buildResult_of_built_error built_eq), review_of_built_error built_eq]
    rfl
  | ok result =>
    have built := buildResult_of_built built_eq
    have reviewed := review_of_built built_eq
    cases projected : reviewer.project result with
    | error failure =>
      rw [log, run_of_failed built projected, reviewed, projected]
      rfl
    | ok output =>
      rw [projected] at reviewed
      obtain ⟨violations_length, insights_length⟩ := lengths_eq_engineResults reviewed
      rw [log, run_of_finished built projected, reviewed, violations_length, insights_length,
        ← result_of_project_eq_ok projected]
      rfl

theorem shown_failureEntry (index : Nat) (outcome : ReviewOutcome) :
    (failureEntry index outcome).map LogEntry.shown = shownFailure index outcome := by
  cases outcome <;> rfl

/-- Several reviews log how many they are, and then in order what each logs alone and whether it
failed. -/
theorem shown_logAll (reviewer : Reviewer) (requests : List ReviewRequest) :
    (reviewer.logAll requests).map LogEntry.shown =
      .event "DEBUG" "reviewing resources" [("requests", .count requests.length)] ::
        (requests.zip (reviewer.reviewAll requests)).zipIdx.flatMap
          (fun ((request, outcome), index) =>
            (reviewer.log request).map LogEntry.shown ++ shownFailure index outcome) := by
  rw [logAll, List.map_cons, logFrom_eq_flatMap, List.map_flatMap, reviewAll,
    ← List.map_prod_left_eq_zip, List.zipIdx_map, List.flatMap_map]
  simp only [entriesFor, List.map_append, shown_failureEntry]
  rfl

/-- A step of a single worker, which goes back to its other pieces only when those before them are
done. -/
inductive StepAlone (reviewer : Reviewer) : Batch → Batch → Prop where
  | work {piece : Piece} {effect : Effect} (before after : List Piece)
    (places : List (Option ReviewOutcome)) (log : List LogEntry)
    (done : ∀ earlier ∈ before, earlier = ⟨none, []⟩) (works : Works reviewer piece effect) :
    StepAlone reviewer ⟨before ++ piece :: after, places, log⟩
      ⟨before ++ (effect.pieces ++ after), effect.fill places, log ++ effect.log⟩

section Alone

variable {requests : List ReviewRequest} {batch next : Batch}

theorem StepAlone.step (alone : StepAlone reviewer batch next) : Step reviewer batch next := by
  obtain ⟨before, after, places, log, -, works⟩ := alone
  exact .work before after places log works

/-- A single worker logs the first of the entries that are to be logged. -/
theorem StepAlone.logged_eq (alone : StepAlone reviewer batch next) :
    next.log ++ next.unlogged reviewer = batch.log ++ batch.unlogged reviewer := by
  obtain ⟨before, after, places, log, done, works⟩ := alone
  -- The pieces in front are done, so what the step logs is the first of what is to be logged.
  have before_nil : before.flatMap (Piece.unlogged reviewer) = [] := by
    rw [List.flatMap_eq_nil_iff]
    intro piece piece_mem
    rw [done piece piece_mem]
    rfl
  simp only [Batch.unlogged, List.flatMap_append, List.flatMap_cons, before_nil,
    works.unlogged_eq, List.nil_append, List.append_assoc]

/-- However far a single worker has come, the entries that are to be logged follow in order. -/
theorem logged_eq_of_reaches
    (reaches : Relation.ReflTransGen (StepAlone reviewer) (Batch.start requests) batch) :
    batch.log ++ batch.unlogged reviewer = reviewer.logAll requests := by
  induction reaches with
  | refl => exact logged_start reviewer requests
  | tail _ alone ih => rw [alone.logged_eq, ih]

theorem Piece.promised_eq_nil_iff {piece : Piece} :
    piece.promised reviewer = [] ↔ piece = ⟨none, []⟩ := by
  obtain ⟨current, waiting⟩ := piece
  simp [Piece.promised]

/-- A single worker has a step to take as long as anybody has. -/
theorem ended_of_not_stepAlone (batch : Batch) (stuck : ∀ next, ¬ StepAlone reviewer batch next) :
    batch.Ended reviewer := by
  obtain ⟨pieces, places, log⟩ := batch
  rcases forall_or_first (· = ⟨none, []⟩) pieces with
    done | ⟨before, piece, after, rfl, done, unfinished⟩
  · exact Batch.ended_of_done done
  · obtain ⟨effect, works⟩ := exists_works reviewer (Piece.promised_eq_nil_iff.not.mpr unfinished)
    exact absurd (.work before after places log done works) (stuck _)

end Alone

/-- The log of several reviews by a single worker mirrors the outcomes: what each review logs alone
in order, and behind it a warning exactly if it failed.  What a review logs alone tells exactly
whether its result was built and whether it succeeded. -/
theorem log_mirrors_outcomes (reviewer : Reviewer) (requests : List ReviewRequest) :
    (reviewer.logAll requests).map LogEntry.shown =
      .event "DEBUG" "reviewing resources" [("requests", .count requests.length)] ::
        (requests.zip (reviewer.reviewAll requests)).zipIdx.flatMap
          (fun ((request, outcome), index) =>
            (reviewer.log request).map LogEntry.shown ++ shownFailure index outcome) ∧
    (∀ request, (reviewer.log request).map LogEntry.shown =
      ⟨.span, some "DEBUG", [("target", .text request.target)]⟩ ::
        (shownRecord (reviewer.built request) ++
          shownSuccess (engineResults request) (reviewer.review request))) ∧
    ∀ batch, Relation.ReflTransGen (StepAlone reviewer) (Batch.start requests) batch →
      batch.log <+: reviewer.logAll requests ∧
      (∃ last, Relation.ReflTransGen (StepAlone reviewer) batch last ∧ last.Ended reviewer) ∧
      (batch.Ended reviewer → batch.log = reviewer.logAll requests ∧
        batch.places = (reviewer.reviewAll requests).map some) := by
  refine ⟨shown_logAll reviewer requests, shown_log reviewer, fun batch reaches => ?_⟩
  have logged := logged_eq_of_reaches reaches
  have reached : Relation.ReflTransGen (Step reviewer) (Batch.start requests) batch :=
    Relation.ReflTransGen.mono (fun _ _ => StepAlone.step) _ _ reaches
  have keeps := keeps_of_reaches reached
  refine ⟨⟨_, logged⟩, exists_ended_by StepAlone.step ended_of_not_stepAlone batch,
    fun ended => ⟨?_, keeps.places_eq ended⟩⟩
  rw [← logged, ended.unlogged_eq_nil, List.append_nil]

end Reviewer
end PolicyReview
