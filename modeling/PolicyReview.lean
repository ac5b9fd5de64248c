import PolicyReview.Config.Setup
import PolicyReview.Event.Dynamic
import PolicyReview.Event.Plain
import PolicyReview.Event.Structured
import PolicyReview.Review.Rendering
import PolicyReview.Sample.Store
import PolicyReview.Schema.Records
import PolicyReview.Proofs.Structured.Encoding
import PolicyReview.Proofs.Record.Finding
import PolicyReview.Proofs.Record.Response
import PolicyReview.Proofs.Review.Decision
import PolicyReview.Proofs.Review.Rendering
import PolicyReview.Proofs.Review.Engine
import PolicyReview.Proofs.Dynamic.Normal
import PolicyReview.Proofs.Json.Homomorphism
import PolicyReview.Proofs.Structured.Readers
import PolicyReview.Proofs.Json.Canonical
import PolicyReview.Proofs.Dynamic.Canonical
import PolicyReview.Proofs.Review.Agreement
import PolicyReview.Proofs.Config.Effective
import PolicyReview.Proofs.Json.Meaning
import PolicyReview.Proofs.Json.Slots
import PolicyReview.Proofs.Record.Grammar
import PolicyReview.Proofs.Dynamic.Document
import PolicyReview.Proofs.Record.Insight
import PolicyReview.Proofs.Record.RoundTrip
import PolicyReview.Proofs.Json.Lines
import PolicyReview.Proofs.Record.InsightList
import PolicyReview.Proofs.Review.Insights
import PolicyReview.Proofs.Review.Dependence
import PolicyReview.Proofs.Review.Workers
import PolicyReview.Proofs.Schema.Validity
import PolicyReview.Proofs.Schema.Written
import PolicyReview.Proofs.Json.Distinct
import PolicyReview.Proofs.Record.Violation
import PolicyReview.Proofs.Schema.Readers
import PolicyReview.Proofs.Json.Nesting
import PolicyReview.Proofs.Event.Values
import PolicyReview.Proofs.Review.Refusal
import PolicyReview.Proofs.Review.Log
import PolicyReview.Proofs.Structured.Printers
import PolicyReview.Proofs.Record.Constraint
import PolicyReview.Proofs.Dynamic.Kinds
import PolicyReview.Proofs.Dynamic.Spelling
import PolicyReview.Proofs.Event.Plain
import PolicyReview.Proofs.Structured.RoundTrip
import PolicyReview.Proofs.Event.Settled
import PolicyReview.Proofs.Dynamic.Equality
import PolicyReview.Proofs.Dynamic.Identity
import PolicyReview.Proofs.Record.Inserts
import PolicyReview.Proofs.Config.Overrides
import PolicyReview.Proofs.Config.Setup
import PolicyReview.Proofs.Toml.Edit
import PolicyReview.Proofs.Toml.Spelling
import PolicyReview.Proofs.Toml.Sorted
import PolicyReview.Proofs.Config.File
