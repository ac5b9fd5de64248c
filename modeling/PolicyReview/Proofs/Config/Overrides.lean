import PolicyReview.Proofs.Config.Effective

/-!
# Overrides are edits

Overrides have the effect of edits to the file, whether the settings are usable or not.  Effective
settings are stable: a file that spells them out resolves to them.
-/

namespace PolicyReview
namespace FileConfig

variable {config : FileConfig} {overrides : Overrides}

/-- The file once its name field and its category have been replaced by the overrides that are
given. -/
def edited (config : FileConfig) (overrides : Overrides) : FileConfig :=
  let named :=
    match overrides.nameField with
    | some nameField => { config with nameField := some nameField }
    | none => config
  match overrides.category with
  | some category => { named with insights := { named.insights with category := some category } }
  | none => named

/-- The file that gives all four effective settings. -/
def spellingOut (schema : Option String) (effective : ReviewConfig) : FileConfig where
  schema := schema
  nameField := some effective.nameField
  insights :=
    { category := some effective.insights.category
      resourceKey := some effective.insights.resourceKey
      metadataKey := some effective.insights.metadataKey }

theorem resolve_edited (config : FileConfig) (overrides : Overrides) :
    (config.edited overrides).resolve {} = config.resolve overrides := by
  obtain ⟨nameField, category⟩ := overrides
  cases nameField <;> cases category <;> rfl

theorem effective_spellingOut (schema : Option String) (effective : ReviewConfig) :
    (spellingOut schema effective).effective {} = effective :=
  rfl

/-- Of the conditions only the one on the schema is about more than effective settings. -/
theorem Usable.spellingOut {schema : Option String} (usable : config.Usable overrides)
    (supported : schema = none ∨ schema = some configSchema) :
    (spellingOut schema (config.effective overrides)).Usable {} where
  schema := supported
  nameField := usable.nameField
  category := usable.category
  resourceKey := usable.resourceKey
  metadataKey := usable.metadataKey
  keys_ne := usable.keys_ne

theorem resolve_spellingOut {schema : Option String} {effective : ReviewConfig}
    (resolved : config.resolve overrides = .ok effective)
    (supported : schema = none ∨ schema = some configSchema) :
    (spellingOut schema effective).resolve {} = .ok effective := by
  obtain ⟨usable, rfl⟩ := resolve_eq_ok_iff.mp resolved
  exact resolve_eq_ok_iff.mpr
    ⟨usable.spellingOut supported, (effective_spellingOut schema _).symm⟩

/-- Resolving with overrides is resolving the edited file, errors included, and the configurations
that come out are those that the files spelling them out resolve to. -/
theorem resolve_edits_and_fixed_points :
    (∀ (config : FileConfig) (overrides : Overrides),
      config.resolve overrides = (config.edited overrides).resolve {}) ∧
    (∀ (config : FileConfig) (overrides : Overrides) (effective : ReviewConfig),
      config.resolve overrides = .ok effective →
        ∀ schema, schema = none ∨ schema = some configSchema →
          (spellingOut schema effective).resolve {} = .ok effective) ∧
    ∀ effective, (∃ config overrides, FileConfig.resolve config overrides = .ok effective) ↔
      (spellingOut none effective).resolve {} = .ok effective := by
  refine ⟨fun config overrides => (config.resolve_edited overrides).symm,
    fun _ _ _ resolved _ supported => resolve_spellingOut resolved supported,
    fun effective => ⟨?_, fun resolved => ⟨_, _, resolved⟩⟩⟩
  rintro ⟨config, overrides, resolved⟩
  exact resolve_spellingOut resolved (.inl rfl)

/-- Blanks around a name stay, and the key that is given goes together with the default of the
other. -/
theorem resolve_of_name_spelled_out :
    resolve { nameField := some "", insights := { metadataKey := some "details" } }
        { nameField := some " id ", category := some "A_1" } =
      .ok ⟨" id ", ⟨"A_1", "resource", "details"⟩⟩ ∧
    (spellingOut (some configSchema) ⟨" id ", ⟨"A_1", "resource", "details"⟩⟩).resolve {} =
      .ok ⟨" id ", ⟨"A_1", "resource", "details"⟩⟩ := by
  have resolved : resolve { nameField := some "", insights := { metadataKey := some "details" } }
      { nameField := some " id ", category := some "A_1" } =
        .ok ⟨" id ", ⟨"A_1", "resource", "details"⟩⟩ := by
    rfl
  exact ⟨resolved, resolve_edits_and_fixed_points.2.1 _ _ _ resolved _ (.inr rfl)⟩

end FileConfig
end PolicyReview
