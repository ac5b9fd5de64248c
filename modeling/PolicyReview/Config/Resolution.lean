import PolicyReview.Config.File
import PolicyReview.Review.Config
import PolicyReview.Text.Blank

/-!
# Resolving a configuration

The effective configuration takes each setting from the overrides, then from the file, then from the
defaults.  A setting that is not usable is an error; of several, the first in the order schema, name
field, category, resource key, metadata key, equal keys.
-/

namespace PolicyReview

/-- Settings that win over a configuration file. -/
structure Overrides where
  nameField : Option String := none
  category : Option String := none
  deriving DecidableEq, Repr

/-- Why settings have no effective configuration. -/
inductive ResolveError where
  | unsupportedSchema (schema : String)
  /-- A setting is blank. -/
  | blankSetting (setting : String)
  /-- A category is not written in upper snake case. -/
  | badCategory (category : String)
  /-- Resource and metadata would stand under the same key. -/
  | equalKeys (key : String)
  deriving DecidableEq, Repr

/-- The schema that configuration files may name. -/
def configSchema : String := "cvreview.config.v1"

namespace ResolveError

/-- The wordings of an error, outermost first. -/
def chain : ResolveError → List String
  | .unsupportedSchema schema =>
    ["unsupported config schema: " ++ schema ++ " (expected '" ++ configSchema ++ "')"]
  | .blankSetting setting => [setting ++ " must not be empty"]
  | .badCategory category =>
    ["invalid insights.category",
      "unknown category format: " ++ category ++ " (expected UPPER_SNAKE_CASE)"]
  | .equalKeys key =>
    ["insights.resource_key and insights.metadata_key must differ (both are '" ++ key ++ "')"]

end ResolveError

/-- The character may stand in a category. -/
def isCategoryChar (c : Char) : Bool :=
  c.isUpper || c.isDigit || c == '_'

/-- The text is in upper snake case: it starts with a capital and goes on with capitals, digits and
underscores. -/
def isCategory (text : String) : Bool :=
  match text.toList with
  | [] => false
  | c :: rest => c.isUpper && (c :: rest).all isCategoryChar

namespace FileConfig

/-- The schema, when a file names one, must be the supported one. -/
def checkSchema (config : FileConfig) : Except ResolveError Unit :=
  match config.schema with
  | some schema => if schema = configSchema then .ok () else .error (.unsupportedSchema schema)
  | none => .ok ()

/-- A setting with its default; what is given must not be blank. -/
def nonBlank (setting : String) (given : Option String) (standard : String) :
    Except ResolveError String :=
  match given with
  | some value => if Text.isBlank value then .error (.blankSetting setting) else .ok value
  | none => .ok standard

/-- A category with its default; what is given must be in upper snake case. -/
def checkedCategory (given : Option String) (standard : String) : Except ResolveError String :=
  match given with
  | some value => if isCategory value then .ok value else .error (.badCategory value)
  | none => .ok standard

/-- The effective configuration. -/
def resolve (config : FileConfig) (overrides : Overrides) : Except ResolveError ReviewConfig := do
  let standard := ReviewConfig.standard
  config.checkSchema
  let nameField ←
    nonBlank "name_field" (overrides.nameField.or config.nameField) standard.nameField
  let category ←
    checkedCategory (overrides.category.or config.insights.category) standard.insights.category
  let resourceKey ←
    nonBlank "insights.resource_key" config.insights.resourceKey standard.insights.resourceKey
  let metadataKey ←
    nonBlank "insights.metadata_key" config.insights.metadataKey standard.insights.metadataKey
  if resourceKey = metadataKey then .error (.equalKeys resourceKey)
  else .ok ⟨nameField, ⟨category, resourceKey, metadataKey⟩⟩

end FileConfig
end PolicyReview
