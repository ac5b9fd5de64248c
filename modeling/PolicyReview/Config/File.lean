import PolicyReview.Json.Document
import PolicyReview.Toml.Document
import PolicyReview.Toml.Readable

/-!
# Configuration files

A configuration file is a TOML document with known keys, all of which may be left out.  An unknown
key and a value of the wrong type are errors; keys are looked at in sorted order.  A document that
is not readable as a whole still serves when the settings do not touch what is unreadable; once
there is an error, the document is to blame.
-/

namespace PolicyReview

/-- The settings for insights in a configuration file. -/
structure InsightSettings where
  category : Option String := none
  resourceKey : Option String := none
  metadataKey : Option String := none
  deriving DecidableEq, Repr

/-- The settings in a configuration file. -/
structure FileConfig where
  /-- The name of the schema that the file follows. -/
  schema : Option String := none
  nameField : Option String := none
  insights : InsightSettings := {}
  deriving DecidableEq, Repr

/-- Why a text is no configuration file. -/
inductive FileConfigError where
  /-- The text is no TOML document, or none that is readable as a whole. -/
  | notToml
  | unknownKey (key : String) (known : List String)
  | wrongType (found expected : String)
  deriving DecidableEq, Repr

namespace FileConfigError

/-- A key as it is shown in an error. -/
def shown (key : String) : String :=
  "`" ++ key ++ "`"

/-- The wording of an error; a text that is no TOML document has none. -/
def message? : FileConfigError → Option String
  | .notToml => none
  | .unknownKey key known =>
    some ("unknown field " ++ shown key ++ ", expected one of " ++
      ", ".intercalate (known.map shown))
  | .wrongType found expected => some ("invalid type: " ++ found ++ ", expected " ++ expected)

end FileConfigError

namespace FileConfig

/-- The string that a value is. -/
def stringOf : Toml.Value → Except FileConfigError String
  | .string value => .ok value
  | value => .error (.wrongType value.describe "a string")

/-- The keys of the settings for insights. -/
def insightKeys : List String := ["category", "resource_key", "metadata_key"]

/-- The keys of a configuration file. -/
def fileKeys : List String := ["schema", "name_field", "insights"]

/-- Take over one setting for insights. -/
def setInsight (settings : InsightSettings) (key : String) (value : Toml.Value) :
    Except FileConfigError InsightSettings :=
  if key = "category" then do
    let text ← stringOf value
    .ok { settings with category := some text }
  else if key = "resource_key" then do
    let text ← stringOf value
    .ok { settings with resourceKey := some text }
  else if key = "metadata_key" then do
    let text ← stringOf value
    .ok { settings with metadataKey := some text }
  else .error (.unknownKey key insightKeys)

/-- Take over the entries of a table of settings for insights. -/
def insightsOfEntries (settings : InsightSettings) :
    List (String × Toml.Value) → Except FileConfigError InsightSettings
  | [] => .ok settings
  | (key, value) :: entries => do
    let settings ← setInsight settings key value
    insightsOfEntries settings entries

/-- Take over the items of an array of settings for insights, which stand for the keys in their
order; items without a key are passed over. -/
def insightsOfItems (settings : InsightSettings) :
    List String → List Toml.Value → Except FileConfigError InsightSettings
  | key :: keys, item :: items => do
    let settings ← setInsight settings key item
    insightsOfItems settings keys items
  | _, _ => .ok settings

/-- The settings for insights that a value stands for. -/
def insightsOf : Toml.Value → Except FileConfigError InsightSettings
  | .table entries => insightsOfEntries {} entries
  | .array items => insightsOfItems {} insightKeys items
  | .moment _ => .error (.unknownKey Toml.momentKey insightKeys)
  | value => .error (.wrongType value.describe "struct InsightsConfig")

/-- Take over one setting of a configuration file. -/
def setKey (config : FileConfig) (key : String) (value : Toml.Value) :
    Except FileConfigError FileConfig :=
  if key = "schema" then do
    let text ← stringOf value
    .ok { config with schema := some text }
  else if key = "name_field" then do
    let text ← stringOf value
    .ok { config with nameField := some text }
  else if key = "insights" then do
    let insights ← insightsOf value
    .ok { config with insights := insights }
  else .error (.unknownKey key fileKeys)

/-- Take over the entries of a table. -/
def ofEntries (config : FileConfig) :
    List (String × Toml.Value) → Except FileConfigError FileConfig
  | [] => .ok config
  | (key, value) :: entries => do
    let config ← setKey config key value
    ofEntries config entries

/-- The settings that a table stands for. -/
def ofTable (table : List (String × Toml.Value)) : Except FileConfigError FileConfig :=
  ofEntries {} table

/-- The error for a table that stands for no settings. -/
def tableError (table : List (String × Toml.Value)) (error : FileConfigError) : FileConfigError :=
  if Toml.Value.entriesReadable table then error else .notToml

/-- The settings that a text stands for. -/
def ofText (text : String) : Except FileConfigError FileConfig :=
  match Toml.ofText? text with
  | some table => (ofTable table).mapError (tableError table)
  | none => .error .notToml

/-- A member for a setting, if it is there. -/
def settingMember (key : String) (setting : Option String) : List (String × Json.Document) :=
  match setting with
  | some value => [(key, .string value)]
  | none => []

/-- The document of the settings, without those that were left out. -/
def document (config : FileConfig) : Json.Document :=
  .object (settingMember "schema" config.schema ++ settingMember "name_field" config.nameField ++
    [("insights", .object (settingMember "category" config.insights.category ++
      settingMember "resource_key" config.insights.resourceKey ++
      settingMember "metadata_key" config.insights.metadataKey))])

end FileConfig
end PolicyReview
