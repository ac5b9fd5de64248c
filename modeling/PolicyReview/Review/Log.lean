/-!
# Review log

What a review does is logged as a list of entries: a span is opened for each review, the name of
the resource is recorded in it once it is known, and events tell what happened.
-/

namespace PolicyReview

/-- One entry of the log. -/
inductive LogEntry where
  /-- A span for the review of a target is opened. -/
  | opened (target : String)
  /-- The span learns the name of the resource. -/
  | named (resource : String)
  /-- A review is done. -/
  | reviewed (resource : String) (violations insights : Nat)
  /-- A number of reviews begins. -/
  | started (requests : Nat)
  /-- A review among several failed. -/
  | failed (index : Nat) (error : String)
  deriving DecidableEq, Repr

namespace LogEntry

/-- The kinds of entries. -/
inductive Kind where
  /-- A span is opened. -/
  | span
  /-- A span that is open learns a field. -/
  | record
  | event
  deriving DecidableEq, Repr

/-- The kind of an entry. -/
def kind : LogEntry → Kind
  | .opened _ => .span
  | .named _ => .record
  | .reviewed _ _ _ => .event
  | .started _ => .event
  | .failed _ _ => .event

/-- The value of a logged field. -/
inductive Field where
  | text (value : String)
  | count (value : Nat)
  deriving DecidableEq, Repr

/-- The level of an entry; a record has none. -/
def level? : LogEntry → Option String
  | .opened _ => some "DEBUG"
  | .named _ => none
  | .reviewed _ _ _ => some "DEBUG"
  | .started _ => some "DEBUG"
  | .failed _ _ => some "WARN"

/-- The fields of an entry; an event has a message among them. -/
def fields : LogEntry → List (String × Field)
  | .opened target => [("target", .text target)]
  | .named resource => [("resource", .text resource)]
  | .reviewed resource violations insights =>
    [("message", .text "reviewed resource"), ("resource", .text resource),
      ("violations", .count violations), ("insights", .count insights)]
  | .started requests =>
    [("message", .text "reviewing resources"), ("requests", .count requests)]
  | .failed index error =>
    [("message", .text "review failed"), ("index", .count index), ("error", .text error)]

end LogEntry
end PolicyReview
