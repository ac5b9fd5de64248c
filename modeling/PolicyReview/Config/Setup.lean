import PolicyReview.Config.Resolution
import PolicyReview.Review.Reviewer

/-!
# Setting up a reviewer

A reviewer is set up from the text of a configuration file.  A blank text stands for a file without
settings.
-/

namespace PolicyReview

/-- Why a reviewer cannot be set up. -/
inductive SetupError where
  /-- The text is no configuration file. -/
  | parse (error : FileConfigError)
  /-- The settings have no effective configuration. -/
  | resolve (error : ResolveError)
  deriving DecidableEq, Repr

/-- What was being done when an error arose. -/
def SetupError.context : SetupError → String
  | .parse _ => "parse config"
  | .resolve _ => "resolve config"

namespace Reviewer

/-- The settings that a text stands for, where a blank text has none. -/
def settingsOfText (text : String) : Except FileConfigError FileConfig :=
  if Text.isBlank text then .ok {} else FileConfig.ofText text

/-- Set up a reviewer from the text of a configuration file. -/
def ofConfigText (text : String) (overrides : Overrides) : Except SetupError Reviewer :=
  match settingsOfText text with
  | .error error => .error (.parse error)
  | .ok config =>
    match config.resolve overrides with
    | .error error => .error (.resolve error)
    | .ok effective => .ok ⟨effective⟩

end Reviewer
end PolicyReview
