/-!
# Review configuration

The effective configuration says which field of a resource holds its name, and how insights are
categorised and keyed.
-/

namespace PolicyReview

/-- How insights are written. -/
structure InsightConfig where
  category : String := "SECURITY"
  /-- Content key of the resource. -/
  resourceKey : String := "resource"
  /-- Content key of the violation's metadata. -/
  metadataKey : String := "metadata"
  deriving DecidableEq, Repr

/-- The effective configuration of a review. -/
structure ReviewConfig where
  /-- The field of a resource that holds its name. -/
  nameField : String := "name"
  insights : InsightConfig := {}
  deriving DecidableEq, Repr

/-- The default configuration. -/
def ReviewConfig.standard : ReviewConfig := {}

/-- The default way to write insights. -/
def InsightConfig.standard : InsightConfig := {}

end PolicyReview
