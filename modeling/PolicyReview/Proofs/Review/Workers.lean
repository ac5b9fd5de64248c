import PolicyReview.Review.Reviewer
import Mathlib.Algebra.GroupWithZero.Nat
import Mathlib.Logic.Relation
import Mathlib.Tactic.ByContra

/-!
# Reviews by several workers

Requests may be reviewed by any number of workers at once.  A worker reviews the requests of its
piece one after the other and may hand over some of those that wait; in which order the workers take
their steps is open.  They share the configuration, which nobody changes, and a log, and every
outcome has a place of its own.  Whatever the workers do, they come to an end, and then each place
holds the outcome of reviewing its request alone.
-/

namespace PolicyReview
namespace Reviewer

/-- How far a review has come. -/
inductive Stage where
  | taken (request : ReviewRequest)
  | built (result : ReviewResult)

/-- The requests of one worker, each with the index of the place for its outcome. -/
structure Piece where
  /-- The review under way. -/
  current : Option (Stage × Nat)
  /-- The requests that are not taken yet. -/
  waiting : List (ReviewRequest × Nat)

/-- What a worker makes of its piece, and what it gives away. -/
structure Effect where
  pieces : List Piece
  outcome : Option (ReviewOutcome × Nat) := none
  log : List LogEntry := []

/-- A step of a worker, which looks at nothing but its piece and the configuration. -/
inductive Works (reviewer : Reviewer) : Piece → Effect → Prop where
  | handOver (kept given : List (ReviewRequest × Nat)) (kept_ne : kept ≠ [])
    (given_ne : given ≠ []) :
    Works reviewer ⟨none, kept ++ given⟩ { pieces := [⟨none, kept⟩, ⟨none, given⟩] }
  | take (request : ReviewRequest) (index : Nat) (waiting : List (ReviewRequest × Nat)) :
    Works reviewer ⟨none, (request, index) :: waiting⟩
      { pieces := [⟨some (.taken request, index), waiting⟩], log := [.opened request.target] }
  | build {request : ReviewRequest} {result : ReviewResult} (index : Nat)
    (waiting : List (ReviewRequest × Nat)) (built : reviewer.buildResult request = .ok result) :
    Works reviewer ⟨some (.taken request, index), waiting⟩
      { pieces := [⟨some (.built result, index), waiting⟩], log := [.named result.name] }
  | refuse {request : ReviewRequest} {failure : ReviewFailure} (index : Nat)
    (waiting : List (ReviewRequest × Nat))
    (refused : reviewer.buildResult request = .error failure) :
    Works reviewer ⟨some (.taken request, index), waiting⟩
      { pieces := [⟨none, waiting⟩], outcome := some (.error failure, index)
        log := [.failed index failure.line] }
  | finish {result : ReviewResult} {output : ReviewOutput} (index : Nat)
    (waiting : List (ReviewRequest × Nat)) (projected : reviewer.project result = .ok output) :
    Works reviewer ⟨some (.built result, index), waiting⟩
      { pieces := [⟨none, waiting⟩], outcome := some (.ok output, index)
        log := [.reviewed result.name output.violations.length output.insights.length] }
  | fail {result : ReviewResult} {failure : ReviewFailure} (index : Nat)
    (waiting : List (ReviewRequest × Nat)) (failed : reviewer.project result = .error failure) :
    Works reviewer ⟨some (.built result, index), waiting⟩
      { pieces := [⟨none, waiting⟩], outcome := some (.error failure, index)
        log := [.failed index failure.line] }

/-- Reviews under way. -/
structure Batch where
  pieces : List Piece
  /-- The outcomes that are known, at the indices of their requests. -/
  places : List (Option ReviewOutcome)
  log : List LogEntry

/-- At first all requests are one piece. -/
def Batch.start (requests : List ReviewRequest) : Batch where
  pieces := [⟨none, requests.zipIdx⟩]
  places := List.replicate requests.length none
  log := [.started requests.length]

/-- Put the outcome that a step has found into its place. -/
def Effect.fill (effect : Effect) (places : List (Option ReviewOutcome)) :
    List (Option ReviewOutcome) :=
  match effect.outcome with
  | none => places
  | some (outcome, index) => places.set index (some outcome)

/-- Some worker takes a step, and the pieces of the others stay as they are. -/
inductive Step (reviewer : Reviewer) : Batch → Batch → Prop where
  | work {piece : Piece} {effect : Effect} (before after : List Piece)
    (places : List (Option ReviewOutcome)) (log : List LogEntry)
    (works : Works reviewer piece effect) :
    Step reviewer ⟨before ++ piece :: after, places, log⟩
      ⟨before ++ (effect.pieces ++ after), effect.fill places, log ++ effect.log⟩

/-- Nobody has anything left to do. -/
def Batch.Ended (reviewer : Reviewer) (batch : Batch) : Prop :=
  ∀ next, ¬ Step reviewer batch next

section Review

variable {reviewer : Reviewer} {request : ReviewRequest} {result : ReviewResult}
  {output : ReviewOutput} {failure : ReviewFailure}

theorem run_of_refused (refused : reviewer.buildResult request = .error failure) :
    reviewer.run request = ([.opened request.target], .error failure) := by
  rw [run, refused]

theorem run_of_failed (built : reviewer.buildResult request = .ok result)
    (failed : reviewer.project result = .error failure) :
    reviewer.run request = ([.opened request.target, .named result.name], .error failure) := by
  simp only [run, built, failed]

theorem run_of_finished (built : reviewer.buildResult request = .ok result)
    (projected : reviewer.project result = .ok output) :
    reviewer.run request = ([.opened request.target, .named result.name,
      .reviewed result.name output.violations.length output.insights.length], .ok output) := by
  simp only [run, built, projected]

end Review

/-- The outcome that a review under way comes to. -/
def Stage.outcome (reviewer : Reviewer) : Stage → ReviewOutcome
  | .taken request => reviewer.review request
  | .built result => reviewer.project result

/-- The entries that a review under way has still to log. -/
def Stage.entries (reviewer : Reviewer) (index : Nat) : Stage → List LogEntry
  | .taken request =>
    (reviewer.log request).tail ++ failureEntry index (reviewer.review request)
  | .built result =>
    match reviewer.project result with
    | .ok output => [.reviewed result.name output.violations.length output.insights.length]
    | .error failure => [.failed index failure.line]

/-- The entries for the review of a request among several. -/
def entriesFor (reviewer : Reviewer) (job : ReviewRequest × Nat) : List LogEntry :=
  reviewer.log job.1 ++ failureEntry job.2 (reviewer.review job.1)

section Stages

variable {reviewer : Reviewer} {request : ReviewRequest} {result : ReviewResult}

theorem outcome_taken_of_built (built : reviewer.buildResult request = .ok result) :
    (Stage.taken request).outcome reviewer = (Stage.built result).outcome reviewer := by
  cases projected : reviewer.project result with
  | ok output => simp [Stage.outcome, review, run_of_finished built projected, projected]
  | error failure => simp [Stage.outcome, review, run_of_failed built projected, projected]

theorem entriesFor_eq_cons (request : ReviewRequest) (index : Nat) :
    reviewer.entriesFor (request, index) =
      .opened request.target :: (Stage.taken request).entries reviewer index := by
  have opened : reviewer.log request = .opened request.target :: (reviewer.log request).tail := by
    unfold log run
    split
    · rfl
    · split <;> rfl
  rw [entriesFor, opened]
  rfl

theorem entries_taken_of_built (built : reviewer.buildResult request = .ok result) (index : Nat) :
    (Stage.taken request).entries reviewer index =
      .named result.name :: (Stage.built result).entries reviewer index := by
  cases projected : reviewer.project result with
  | ok output =>
    simp [Stage.entries, review, log, run_of_finished built projected, projected, failureEntry]
  | error failure =>
    simp [Stage.entries, review, log, run_of_failed built projected, projected, failureEntry]

end Stages

namespace Piece

/-- The outcomes that a piece comes to, with the indices of their places. -/
def promised (reviewer : Reviewer) (piece : Piece) : List (ReviewOutcome × Nat) :=
  piece.current.toList.map (Prod.map (Stage.outcome reviewer) id) ++
    piece.waiting.map (Prod.map reviewer.review id)

/-- The entries that are still to be logged for a piece. -/
def unlogged (reviewer : Reviewer) (piece : Piece) : List LogEntry :=
  piece.current.toList.flatMap (fun review => review.1.entries reviewer review.2) ++
    piece.waiting.flatMap reviewer.entriesFor

/-- A bound on the steps that a piece takes.  Of `n` requests, `n - 1` may be handed over, and each
of them takes three steps more. -/
def weight (piece : Piece) : Nat :=
  (match piece.current with
    | none => 0
    | some (.taken _, _) => 2
    | some (.built _, _) => 1) + (4 * piece.waiting.length - 1)

end Piece

namespace Works

variable {reviewer : Reviewer} {piece : Piece} {effect : Effect}

/-- A step keeps every outcome that the piece comes to, and finds no other. -/
theorem promised_eq (works : Works reviewer piece effect) : piece.promised reviewer =
    effect.outcome.toList ++ effect.pieces.flatMap (Piece.promised reviewer) := by
  cases works with
  | handOver _ _ _ _ => simp [Piece.promised]
  | take _ _ _ => simp [Piece.promised, Stage.outcome]
  | build index waiting built => simp [Piece.promised, outcome_taken_of_built built]
  | refuse index waiting refused =>
    simp [Piece.promised, Stage.outcome, review, run_of_refused refused]
  | finish index waiting projected => simp [Piece.promised, Stage.outcome, projected]
  | fail index waiting failed => simp [Piece.promised, Stage.outcome, failed]

/-- A step logs the first of the entries that are to be logged. -/
theorem unlogged_eq (works : Works reviewer piece effect) : piece.unlogged reviewer =
    effect.log ++ effect.pieces.flatMap (Piece.unlogged reviewer) := by
  cases works with
  | handOver _ _ _ _ => simp [Piece.unlogged]
  | take request index waiting => simp [Piece.unlogged, entriesFor_eq_cons]
  | build index waiting built => simp [Piece.unlogged, entries_taken_of_built built]
  | refuse index waiting refused =>
    simp [Piece.unlogged, Stage.entries, review, log, run_of_refused refused, failureEntry]
  | finish index waiting projected => simp [Piece.unlogged, Stage.entries, projected]
  | fail index waiting failed => simp [Piece.unlogged, Stage.entries, failed]

theorem weight_lt (works : Works reviewer piece effect) :
    (effect.pieces.map Piece.weight).sum < piece.weight := by
  cases works with
  | handOver kept given kept_ne given_ne =>
    have kept_pos := List.length_pos_iff.mpr kept_ne
    have given_pos := List.length_pos_iff.mpr given_ne
    simp only [Piece.weight, List.map_cons, List.map_nil, List.sum_cons, List.sum_nil,
      List.length_append]
    omega
  | _ =>
    simp only [Piece.weight, List.map_cons, List.map_nil, List.sum_cons, List.sum_nil,
      List.length_cons]
    omega

end Works

/-- A worker whose piece comes to an outcome has a step to take. -/
theorem exists_works (reviewer : Reviewer) {piece : Piece}
    (unfinished : piece.promised reviewer ≠ []) : ∃ effect, Works reviewer piece effect := by
  obtain ⟨current, waiting⟩ := piece
  cases current with
  | none =>
    cases waiting with
    | nil => exact absurd rfl unfinished
    | cons job waiting => exact ⟨_, .take job.1 job.2 waiting⟩
  | some review =>
    obtain ⟨stage, index⟩ := review
    cases stage with
    | taken request =>
      cases built : reviewer.buildResult request with
      | error failure => exact ⟨_, .refuse index waiting built⟩
      | ok result => exact ⟨_, .build index waiting built⟩
    | built result =>
      cases projected : reviewer.project result with
      | error failure => exact ⟨_, .fail index waiting projected⟩
      | ok output => exact ⟨_, .finish index waiting projected⟩

namespace Batch

/-- The outcomes that the pieces of a batch come to. -/
def promised (reviewer : Reviewer) (batch : Batch) : List (ReviewOutcome × Nat) :=
  batch.pieces.flatMap (Piece.promised reviewer)

/-- The entries that are still to be logged for a batch. -/
def unlogged (reviewer : Reviewer) (batch : Batch) : List LogEntry :=
  batch.pieces.flatMap (Piece.unlogged reviewer)

/-- A bound on the steps that a batch takes. -/
def weight (batch : Batch) : Nat :=
  (batch.pieces.map Piece.weight).sum

/-- What holds of a batch however far it has come: every place has or is promised the outcome of
reviewing its request alone, and no other, and what is logged and to be logged is, up to its order,
the log of reviewing the requests one after the other. -/
structure Keeps (reviewer : Reviewer) (requests : List ReviewRequest) (batch : Batch) : Prop where
  length_eq : batch.places.length = requests.length
  outcome_iff : ∀ outcome index,
    (outcome, index) ∈ batch.promised reviewer ∨ batch.places[index]? = some (some outcome) ↔
      requests[index]?.map reviewer.review = some outcome
  logged : (batch.log ++ batch.unlogged reviewer).Perm (reviewer.logAll requests)

end Batch

variable {reviewer : Reviewer} {requests : List ReviewRequest}

theorem logFrom_eq_flatMap (reviewer : Reviewer) (requests : List ReviewRequest) (index : Nat) :
    reviewer.logFrom index requests = (requests.zipIdx index).flatMap reviewer.entriesFor := by
  induction requests generalizing index with
  | nil => rfl
  | cons request requests ih =>
    rw [logFrom, ih, List.zipIdx_cons, List.flatMap_cons]
    rfl

theorem logged_start (reviewer : Reviewer) (requests : List ReviewRequest) :
    (Batch.start requests).log ++ (Batch.start requests).unlogged reviewer =
      reviewer.logAll requests := by
  simp [Batch.start, Batch.unlogged, Piece.unlogged, logAll, logFrom_eq_flatMap]

theorem keeps_start (reviewer : Reviewer) (requests : List ReviewRequest) :
    (Batch.start requests).Keeps reviewer requests where
  length_eq := List.length_replicate
  outcome_iff outcome index := by
    have empty : (List.replicate requests.length (none : Option ReviewOutcome))[index]? ≠
        some (some outcome) := by
      simp [List.getElem?_replicate]
    have promised_iff : (outcome, index) ∈ (Batch.start requests).promised reviewer ↔
        requests[index]?.map reviewer.review = some outcome := by
      simp [Batch.promised, Batch.start, Piece.promised, List.mem_zipIdx_iff_getElem?]
    exact (or_iff_left empty).trans promised_iff
  logged := .of_eq (logged_start reviewer requests)

namespace Effect

variable {effect : Effect} {places : List (Option ReviewOutcome)} {outcome : ReviewOutcome}
  {place : Nat}

theorem length_fill : (effect.fill places).length = places.length := by
  unfold fill
  split
  · rfl
  · exact List.length_set

theorem fill_of_none (found : effect.outcome = none) : effect.fill places = places := by
  rw [fill, found]

theorem getElem?_fill_self (found : effect.outcome = some (outcome, place))
    (place_lt : place < places.length) : (effect.fill places)[place]? = some (some outcome) := by
  rw [fill, found, List.getElem?_set_self place_lt]

theorem getElem?_fill_of_ne (found : effect.outcome = some (outcome, place)) {index : Nat}
    (index_ne : index ≠ place) : (effect.fill places)[index]? = places[index]? := by
  rw [fill, found, List.getElem?_set_ne index_ne.symm]

end Effect

section Steps

variable {piece : Piece} {effect : Effect} {before after : List Piece}
  {places : List (Option ReviewOutcome)} {log : List LogEntry}

theorem Works.mem_promised_iff (works : Works reviewer piece effect)
    (found : ReviewOutcome × Nat) :
    found ∈ Batch.promised reviewer ⟨before ++ piece :: after, places, log⟩ ↔
      effect.outcome = some found ∨ found ∈ Batch.promised reviewer
        ⟨before ++ (effect.pieces ++ after), effect.fill places, log ++ effect.log⟩ := by
  simp only [Batch.promised, List.flatMap_append, List.flatMap_cons, works.promised_eq,
    List.mem_append, Option.mem_toList]
  rw [or_assoc, or_left_comm]

/-- The places keep what they hold or were promised while an outcome is put into its place. -/
theorem Works.outcome_iff (works : Works reviewer piece effect)
    (keeps : Batch.Keeps reviewer requests ⟨before ++ piece :: after, places, log⟩)
    (outcome : ReviewOutcome) (index : Nat) :
    (outcome, index) ∈ Batch.promised reviewer
        ⟨before ++ (effect.pieces ++ after), effect.fill places, log ++ effect.log⟩ ∨
      (effect.fill places)[index]? = some (some outcome) ↔
    requests[index]?.map reviewer.review = some outcome := by
  have old_iff := keeps.outcome_iff
  simp only [works.mem_promised_iff] at old_iff
  rw [← old_iff]
  cases found : effect.outcome with
  | none => simp [Effect.fill_of_none found]
  | some filled =>
    obtain ⟨first, place⟩ := filled
    have expected := (old_iff first place).mp (.inl (.inl found))
    have place_lt : place < places.length := by
      obtain ⟨request, at_place, -⟩ := Option.map_eq_some_iff.mp expected
      exact keeps.length_eq ▸ (List.getElem?_eq_some_iff.mp at_place).1
    by_cases same : index = place
    · subst same
      -- What the place may hold already is the outcome that was promised for it.
      have same_of_held (held : places[index]? = some (some outcome)) : first = outcome :=
        Option.some.inj (expected.symm.trans ((old_iff outcome index).mp (.inr held)))
      rw [Effect.getElem?_fill_self found place_lt]
      constructor
      · rintro (promised | filled)
        · exact .inl (.inr promised)
        · cases filled
          exact .inl (.inl rfl)
      · rintro ((filled | promised) | held)
        · cases filled
          exact .inr rfl
        · exact .inl promised
        · rw [same_of_held held]
          exact .inr rfl
    · have differs : (first, place) ≠ (outcome, index) := fun eq => same (Prod.mk.inj eq).2.symm
      simp [Effect.getElem?_fill_of_ne found same, differs]

end Steps

/-- A step keeps what holds of the batch. -/
theorem Step.keeps {batch next : Batch} (step : Step reviewer batch next)
    (keeps : batch.Keeps reviewer requests) : next.Keeps reviewer requests := by
  obtain ⟨before, after, places, log, works⟩ := step
  refine ⟨Effect.length_fill.trans keeps.length_eq, works.outcome_iff keeps, ?logged⟩
  case logged =>
    refine .trans ?_ keeps.logged
    simp only [Batch.unlogged, List.flatMap_append, List.flatMap_cons, works.unlogged_eq,
      List.append_assoc]
    exact (List.perm_append_comm_assoc _ _ _).append_left log

/-- Whatever steps the workers have taken, the batch keeps what held at first. -/
theorem keeps_of_reaches {batch : Batch}
    (reaches : Relation.ReflTransGen (Step reviewer) (Batch.start requests) batch) :
    batch.Keeps reviewer requests := by
  induction reaches with
  | refl => exact keeps_start reviewer requests
  | tail _ step keeps => exact step.keeps keeps

theorem Step.weight_lt {batch next : Batch} (step : Step reviewer batch next) :
    next.weight < batch.weight := by
  obtain ⟨before, after, places, log, works⟩ := step
  have piece_lt := works.weight_lt
  simp only [Batch.weight, List.map_append, List.map_cons, List.sum_append, List.sum_cons]
  omega

/-- The workers cannot go on for ever. -/
theorem wellFounded_step (reviewer : Reviewer) :
    WellFounded fun next batch => Step reviewer batch next :=
  Subrelation.wf Step.weight_lt (measure Batch.weight).wf

/-- Workers that keep to an order of their own come to the end, unless they stop before it. -/
theorem exists_ended_by {Taken : Batch → Batch → Prop}
    (step_of_taken : ∀ {batch next}, Taken batch next → Step reviewer batch next)
    (ended_of_stuck : ∀ batch, (∀ next, ¬ Taken batch next) → batch.Ended reviewer)
    (batch : Batch) : ∃ last, Relation.ReflTransGen Taken batch last ∧ last.Ended reviewer := by
  induction batch using (wellFounded_step reviewer).induction with
  | _ batch ih =>
    by_cases stuck : ∀ next, ¬ Taken batch next
    · exact ⟨batch, .refl, ended_of_stuck batch stuck⟩
    · obtain ⟨next, taken⟩ : ∃ next, Taken batch next := by simpa using stuck
      obtain ⟨last, reaches, ended⟩ := ih next (step_of_taken taken)
      exact ⟨last, .head taken reaches, ended⟩

theorem exists_ended (reviewer : Reviewer) (batch : Batch) :
    ∃ last, Relation.ReflTransGen (Step reviewer) batch last ∧ last.Ended reviewer :=
  exists_ended_by id (fun _ stuck => stuck) batch

section Ended

variable {batch : Batch}

theorem Batch.Ended.promised_eq_nil (ended : batch.Ended reviewer) {piece : Piece}
    (piece_mem : piece ∈ batch.pieces) : piece.promised reviewer = [] := by
  obtain ⟨pieces, places, log⟩ := batch
  by_contra unfinished
  obtain ⟨before, after, rfl⟩ := List.append_of_mem piece_mem
  obtain ⟨effect, works⟩ := exists_works reviewer unfinished
  exact ended _ (.work before after places log works)

theorem Piece.unlogged_eq_nil {piece : Piece} (finished : piece.promised reviewer = []) :
    piece.unlogged reviewer = [] := by
  obtain ⟨current, waiting⟩ := piece
  simp_all [Piece.promised, Piece.unlogged]

theorem Batch.Ended.unlogged_eq_nil (ended : batch.Ended reviewer) :
    batch.unlogged reviewer = [] :=
  List.flatMap_eq_nil_iff.mpr fun _ piece_mem =>
    Piece.unlogged_eq_nil (ended.promised_eq_nil piece_mem)

/-- At the end every place holds the outcome of reviewing its request alone. -/
theorem Batch.Keeps.places_eq (keeps : batch.Keeps reviewer requests)
    (ended : batch.Ended reviewer) :
    batch.places = (reviewer.reviewAll requests).map some := by
  have promised_nil : batch.promised reviewer = [] :=
    List.flatMap_eq_nil_iff.mpr fun _ => ended.promised_eq_nil
  have outcome_iff := keeps.outcome_iff
  simp only [promised_nil, List.not_mem_nil, false_or] at outcome_iff
  apply List.ext_getElem?
  intro index
  rw [reviewAll, List.getElem?_map, List.getElem?_map]
  cases at_index : requests[index]? with
  | some request => exact (outcome_iff _ index).mpr (by rw [at_index]; rfl)
  | none =>
    have length_le := List.getElem?_eq_none_iff.mp at_index
    exact List.getElem?_eq_none (keeps.length_eq ▸ length_le)

/-- At the end everything is logged. -/
theorem Batch.Keeps.log_perm (keeps : batch.Keeps reviewer requests)
    (ended : batch.Ended reviewer) : batch.log.Perm (reviewer.logAll requests) := by
  simpa only [ended.unlogged_eq_nil, List.append_nil] using keeps.logged

end Ended

/-- Several reviews give one outcome for each request, in order, which is that of the request alone,
so that another request in one place changes no other outcome.  Whatever the workers do, they come
to an end, and then they have found these outcomes and logged what reviewing the requests one after
the other logs, in some order. -/
theorem reviewAll_by_workers (reviewer : Reviewer) (requests : List ReviewRequest) :
    (reviewer.reviewAll requests).length = requests.length ∧
    (∀ index : Nat,
      (reviewer.reviewAll requests)[index]? = requests[index]?.map reviewer.review) ∧
    (∀ (index other : Nat) (replacement : ReviewRequest), other ≠ index →
      (reviewer.reviewAll (requests.set index replacement))[other]? =
        (reviewer.reviewAll requests)[other]?) ∧
    WellFounded (fun next batch => Step reviewer batch next) ∧
    ∀ batch, Relation.ReflTransGen (Step reviewer) (Batch.start requests) batch →
      (∃ last, Relation.ReflTransGen (Step reviewer) batch last ∧ last.Ended reviewer) ∧
      (batch.Ended reviewer → batch.places = (reviewer.reviewAll requests).map some ∧
        batch.log.Perm (reviewer.logAll requests)) := by
  refine ⟨List.length_map _, fun index => List.getElem?_map, ?_, wellFounded_step reviewer, ?_⟩
  · intro index other replacement other_ne
    rw [reviewAll, reviewAll, List.getElem?_map, List.getElem?_map,
      List.getElem?_set_ne other_ne.symm]
  · intro batch reaches
    have keeps := keeps_of_reaches reaches
    exact ⟨exists_ended reviewer batch, fun ended => ⟨keeps.places_eq ended, keeps.log_perm ended⟩⟩

/-- A piece with nothing under way and nothing waiting is done. -/
theorem Batch.ended_of_done {batch : Batch} (done : ∀ piece ∈ batch.pieces, piece = ⟨none, []⟩) :
    batch.Ended reviewer := by
  rintro next ⟨before, after, places, log, works⟩
  rename_i piece effect
  obtain rfl := done piece (by simp)
  generalize piece_eq : Piece.mk none [] = piece at works
  cases works with
  | handOver kept given kept_ne given_ne =>
    have empty := List.append_eq_nil_iff.mp (Piece.mk.inj piece_eq).2.symm
    exact kept_ne empty.1
  | _ => cases piece_eq

/-- Two workers: the second request is taken first, and fails while the other is under way. -/
theorem reviewAll_by_two_workers :
    let bucket : ReviewRequest := ⟨"t", [("name", .string "bucket")], none, ⟨[("t", ⟨"t", []⟩)]⟩⟩
    let unknown : ReviewRequest := ⟨"u", [], none, .empty⟩
    ∃ batch, Relation.ReflTransGen (Step {}) (Batch.start [bucket, unknown]) batch ∧
      batch.log = [.started 2, .opened "u", .opened "t", .named "bucket",
        .failed 1 "build review result for target 'u': no response for target 'u'",
        .reviewed "bucket" 0 0] ∧
      batch.places = (reviewAll {} [bucket, unknown]).map some := by
  intro bucket unknown
  have path : Relation.ReflTransGen (Step {}) (Batch.start [bucket, unknown])
      ⟨[⟨none, []⟩, ⟨none, []⟩], _, _⟩ :=
    .head (.work [] [] _ _ (.handOver [(bucket, 0)] [(unknown, 1)] nofun nofun)) <|
    .head (.work [⟨none, [(bucket, 0)]⟩] [] _ _ (.take unknown 1 [])) <|
    .head (.work [] [⟨some (.taken unknown, 1), []⟩] _ _ (.take bucket 0 [])) <|
    .head (.work [] [⟨some (.taken unknown, 1), []⟩] _ _ (.build 0 [] rfl)) <|
    .head (.work [⟨some (.built _, 0), []⟩] [] _ _ (.refuse 1 [] rfl)) <|
    .single (.work [] [⟨none, []⟩] _ _ (.finish 0 [] rfl))
  obtain ⟨_, _, _, _, worked⟩ := reviewAll_by_workers {} [bucket, unknown]
  obtain ⟨places_eq, -⟩ := (worked _ path).2 (Batch.ended_of_done (by simp))
  exact ⟨_, path, by decide, places_eq⟩

end Reviewer
end PolicyReview
