import PolicyReview.Proofs.Config.Effective
import PolicyReview.Proofs.Toml.Blank

/-!
# Blank configuration files

A reviewer is set up from a blank text without a look at its lines.  That makes no difference to the
texts that are configuration files, and of the texts that are none only the blank ones are accepted.
-/

namespace PolicyReview

/-- A blank text gives no settings, be it because its lines are blank or because it is refused. -/
theorem FileConfig.ofText_of_blank {text : String} (blank : ¬ Text.HasVisible text) :
    (Toml.BlankLines text.toList ∧ ofText text = .ok {}) ∨
      (¬ Toml.BlankLines text.toList ∧ ofText text = .error .notToml) := by
  have isBlank : Text.isBlank text = true := isBlank_eq_true_iff.mpr blank
  rcases Toml.ofText?_of_blank isBlank with ⟨lines, read⟩ | ⟨not_lines, read⟩
  · exact .inl ⟨lines, by rw [ofText, read]; rfl⟩
  · exact .inr ⟨not_lines, by rw [ofText, read]⟩

namespace Reviewer

/-- Set up a reviewer from the settings of a file. -/
def ofFileConfig (config : FileConfig) (overrides : Overrides) : Except SetupError Reviewer :=
  ((config.resolve overrides).map Reviewer.mk).mapError .resolve

variable {text : String} {overrides : Overrides}

theorem ofConfigText_of_settings {config : FileConfig}
    (settings : settingsOfText text = .ok config) (overrides : Overrides) :
    ofConfigText text overrides = ofFileConfig config overrides := by
  simp only [ofConfigText, settings, ofFileConfig]
  cases config.resolve overrides <;> rfl

theorem ofConfigText_of_refused {error : FileConfigError}
    (refused : settingsOfText text = .error error) (overrides : Overrides) :
    ofConfigText text overrides = .error (.parse error) := by
  simp only [ofConfigText, refused]

theorem context_of_ofFileConfig_eq_error {config : FileConfig} {failure : SetupError}
    (failed : ofFileConfig config overrides = .error failure) :
    failure.context = "resolve config" := by
  rw [ofFileConfig] at failed
  cases resolved : config.resolve overrides with
  | error error =>
    rw [resolved] at failed
    cases failed
    rfl
  | ok effective =>
    rw [resolved] at failed
    cases failed

theorem settingsOfText_of_blank (blank : ¬ Text.HasVisible text) : settingsOfText text = .ok {} :=
  if_pos (isBlank_eq_true_iff.mpr blank)

theorem settingsOfText_of_visible (visible : Text.HasVisible text) :
    settingsOfText text = FileConfig.ofText text :=
  if_neg fun blank => isBlank_eq_true_iff.mp blank visible

/-- The settings of a configuration file are those of its text, blank or not. -/
theorem settingsOfText_of_ofText {config : FileConfig}
    (read : FileConfig.ofText text = .ok config) : settingsOfText text = .ok config := by
  by_cases visible : Text.HasVisible text
  · rw [settingsOfText_of_visible visible, read]
  · rcases FileConfig.ofText_of_blank visible with ⟨_, empty⟩ | ⟨_, refused⟩
    · rw [settingsOfText_of_blank visible, ← empty, read]
    · cases read.symm.trans refused

/-- A text that is a configuration file sets a reviewer up as its settings do.  One that is none
fails to be parsed, unless it is blank: then it stands for a file without settings.  Blank texts are
configuration files as long as their lines hold spaces and tabs only. -/
theorem ofConfigText_agrees_with_file (text : String) (overrides : Overrides) :
    (∀ config, FileConfig.ofText text = .ok config →
      ofConfigText text overrides = ofFileConfig config overrides) ∧
    (∀ error, FileConfig.ofText text = .error error →
      (Text.HasVisible text → ofConfigText text overrides = .error (.parse error)) ∧
      (¬ Text.HasVisible text → ofConfigText text overrides = ofFileConfig {} overrides)) ∧
    (∀ failure, ofConfigText text overrides = .error failure →
      failure.context = "parse config" ∧ Text.HasVisible text ∧
          (∃ error, FileConfig.ofText text = .error error) ∨
        failure.context = "resolve config" ∧
          (¬ Text.HasVisible text ∨ ∃ config, FileConfig.ofText text = .ok config)) ∧
    (¬ Text.HasVisible text →
      ((∃ config, FileConfig.ofText text = .ok config) ↔ Toml.BlankLines text.toList)) := by
  refine ⟨fun config read => ofConfigText_of_settings (settingsOfText_of_ofText read) overrides,
    fun error refused => ⟨fun visible => ?refused, fun blank => ?shortcut⟩,
    fun failure failed => ?failed, fun blank => ?blank⟩
  case refused =>
    exact ofConfigText_of_refused ((settingsOfText_of_visible visible).trans refused) overrides
  case shortcut => exact ofConfigText_of_settings (settingsOfText_of_blank blank) overrides
  case failed =>
    by_cases visible : Text.HasVisible text
    · cases read : FileConfig.ofText text with
      | error error =>
        rw [ofConfigText_of_refused ((settingsOfText_of_visible visible).trans read)] at failed
        cases failed
        exact .inl ⟨rfl, visible, error, rfl⟩
      | ok config =>
        rw [ofConfigText_of_settings (settingsOfText_of_ofText read)] at failed
        exact .inr ⟨context_of_ofFileConfig_eq_error failed, .inr ⟨config, rfl⟩⟩
    · rw [ofConfigText_of_settings (settingsOfText_of_blank visible)] at failed
      exact .inr ⟨context_of_ofFileConfig_eq_error failed, .inl visible⟩
  case blank =>
    rcases FileConfig.ofText_of_blank blank with ⟨lines, read⟩ | ⟨not_lines, refused⟩
    · exact iff_of_true ⟨_, read⟩ lines
    · refine iff_of_false ?_ not_lines
      rintro ⟨config, read⟩
      cases read.symm.trans refused

/-- A blank file, a text that is neither blank nor a file, and a no-break space, which is blank and
no file. -/
theorem ofConfigText_of_three_texts :
    ofConfigText "\t\r\n" {} = .ok ⟨.standard⟩ ∧
    ofConfigText "name" {} = .error (.parse .notToml) ∧
    ofConfigText "\u00a0" { category := some "a" } = .error (.resolve (.badCategory "a")) := by
  refine ⟨?_, ?_, ?_⟩
  · exact (ofConfigText_agrees_with_file "\t\r\n" {}).1 {} rfl
  · refine ((ofConfigText_agrees_with_file "name" {}).2.1 .notToml rfl).1 ?_
    exact ⟨'n', by decide, by decide⟩
  · refine ((ofConfigText_agrees_with_file "\u00a0" { category := some "a" }).2.1 .notToml rfl).2 ?_
    exact isBlank_eq_true_iff.mp (by decide)

end Reviewer
end PolicyReview
