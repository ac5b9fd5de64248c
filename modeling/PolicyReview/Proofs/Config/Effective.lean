import PolicyReview.Config.Setup

/-!
# Effective settings

The effective value of a setting is the override, else the setting of the file, else the default.
Resolving a configuration checks conditions on the effective values alone, in a fixed order: the
outcome is the effective configuration or the error of the first condition that fails.
-/

namespace PolicyReview

/-- The text holds a character that is not blank. -/
def Text.HasVisible (text : String) : Prop :=
  ∃ c ∈ text.toList, isBlankChar c = false

/-- The text starts with a capital letter and goes on with capital letters, digits and
underscores, all of them ASCII. -/
def Text.UpperSnake (text : String) : Prop :=
  ∃ first rest, text.toList = first :: rest ∧ ('A' ≤ first ∧ first ≤ 'Z') ∧
    ∀ c ∈ rest, ('A' ≤ c ∧ c ≤ 'Z') ∨ ('0' ≤ c ∧ c ≤ '9') ∨ c = '_'

theorem isBlank_eq_false_iff {text : String} :
    Text.isBlank text = false ↔ Text.HasVisible text := by
  simp [Text.isBlank, Text.HasVisible, List.all_eq_false]

theorem isBlank_eq_true_iff {text : String} :
    Text.isBlank text = true ↔ ¬ Text.HasVisible text := by
  rw [← isBlank_eq_false_iff, Bool.not_eq_false]

theorem isUpper_iff {c : Char} : c.isUpper = true ↔ 'A' ≤ c ∧ c ≤ 'Z' :=
  decide_eq_true_iff

theorem isCategoryChar_iff {c : Char} :
    isCategoryChar c = true ↔ ('A' ≤ c ∧ c ≤ 'Z') ∨ ('0' ≤ c ∧ c ≤ '9') ∨ c = '_' := by
  simp [isCategoryChar, isUpper_iff, Char.isDigit, Char.le_def, or_assoc]

theorem isCategory_iff {text : String} : isCategory text = true ↔ Text.UpperSnake text := by
  unfold isCategory Text.UpperSnake
  cases text.toList with
  | nil => simp
  | cons first rest =>
    simp only [Bool.and_eq_true, List.all_eq_true, List.forall_mem_cons, isUpper_iff,
      isCategoryChar_iff, List.cons.injEq]
    constructor
    · rintro ⟨upper, _, others⟩
      exact ⟨first, rest, ⟨rfl, rfl⟩, upper, others⟩
    · rintro ⟨_, _, ⟨rfl, rfl⟩, upper, others⟩
      exact ⟨upper, .inl upper, others⟩

section InOrder

variable {ε α : Type}

/-- The outcome of conditions that are checked one after the other: the value where all hold, else
the error of the first that fails. -/
inductive InOrder (value : α) : List (Prop × ε) → Except ε α → Prop where
  | done : InOrder value [] (.ok value)
  | holds {condition : Prop} {error : ε} {rest : List (Prop × ε)} {outcome : Except ε α}
    (met : condition) (others : InOrder value rest outcome) :
    InOrder value ((condition, error) :: rest) outcome
  | fails {condition : Prop} {error : ε} {rest : List (Prop × ε)} (unmet : ¬ condition) :
    InOrder value ((condition, error) :: rest) (.error error)

variable {value : α} {conditions : List (Prop × ε)} {outcome : Except ε α}

/-- One check and then the others. -/
theorem InOrder.bind {β : Type} {condition : Prop} {error : ε} {checked : β}
    {check : Except ε β} {next : β → Except ε α}
    (passes : condition → check = .ok checked) (fails : ¬ condition → check = .error error)
    (others : InOrder value conditions (next checked)) :
    InOrder value ((condition, error) :: conditions) (check >>= next) := by
  by_cases met : condition
  · rw [passes met]
    exact .holds met others
  · rw [fails met]
    exact .fails met

theorem InOrder.eq_ok_iff (checked : InOrder value conditions outcome) {result : α} :
    outcome = .ok result ↔ (∀ condition ∈ conditions, condition.1) ∧ result = value := by
  induction checked with
  | done => simp [eq_comm]
  | holds met _ ih => simp [ih, met]
  | fails unmet => simp [unmet]

theorem InOrder.eq_error_iff (checked : InOrder value conditions outcome) {error : ε} :
    outcome = .error error ↔ ∃ before condition after,
      conditions = before ++ (condition, error) :: after ∧ (∀ earlier ∈ before, earlier.1) ∧
        ¬ condition := by
  induction checked with
  | done => simp
  | @holds condition other rest _ met _ ih =>
    rw [ih]
    constructor
    · rintro ⟨before, failed, after, rfl, earlier, unmet⟩
      exact ⟨(condition, other) :: before, failed, after, rfl,
        List.forall_mem_cons.mpr ⟨met, earlier⟩, unmet⟩
    · rintro ⟨before, failed, after, conditions_eq, earlier, unmet⟩
      -- The condition holds, so it is not the one that failed.
      cases before with
      | nil =>
        cases conditions_eq
        exact absurd met unmet
      | cons first before =>
        cases conditions_eq
        exact ⟨before, failed, after, rfl, (List.forall_mem_cons.mp earlier).2, unmet⟩
  | @fails condition other rest unmet =>
    constructor
    · rintro ⟨⟩
      exact ⟨[], condition, rest, rfl, List.forall_mem_nil _, unmet⟩
    · rintro ⟨before, failed, after, conditions_eq, earlier, _⟩
      cases before with
      | nil =>
        cases conditions_eq
        rfl
      | cons first before =>
        cases conditions_eq
        exact absurd (List.forall_mem_cons.mp earlier).1 unmet

end InOrder

namespace FileConfig

variable {config : FileConfig} {overrides : Overrides}

/-- The effective settings: of each the override, else what the file says, else the default. -/
def effective (config : FileConfig) (overrides : Overrides) : ReviewConfig where
  nameField := (overrides.nameField.or config.nameField).getD ReviewConfig.standard.nameField
  insights :=
    { category := (overrides.category.or config.insights.category).getD
        ReviewConfig.standard.insights.category
      resourceKey := config.insights.resourceKey.getD ReviewConfig.standard.insights.resourceKey
      metadataKey := config.insights.metadataKey.getD ReviewConfig.standard.insights.metadataKey }

/-- What a configuration with its overrides has to meet. -/
structure Usable (config : FileConfig) (overrides : Overrides) : Prop where
  schema : config.schema = none ∨ config.schema = some configSchema
  nameField : Text.HasVisible (config.effective overrides).nameField
  category : Text.UpperSnake (config.effective overrides).insights.category
  resourceKey : Text.HasVisible (config.effective overrides).insights.resourceKey
  metadataKey : Text.HasVisible (config.effective overrides).insights.metadataKey
  keys_ne : (config.effective overrides).insights.resourceKey ≠
    (config.effective overrides).insights.metadataKey

/-- The conditions in the order in which they are checked, each with the error for its failure. -/
def conditions (config : FileConfig) (overrides : Overrides) : List (Prop × ResolveError) :=
  let effective := config.effective overrides
  [(config.schema = none ∨ config.schema = some configSchema,
      .unsupportedSchema (config.schema.getD "")),
    (Text.HasVisible effective.nameField, .blankSetting "name_field"),
    (Text.UpperSnake effective.insights.category, .badCategory effective.insights.category),
    (Text.HasVisible effective.insights.resourceKey, .blankSetting "insights.resource_key"),
    (Text.HasVisible effective.insights.metadataKey, .blankSetting "insights.metadata_key"),
    (effective.insights.resourceKey ≠ effective.insights.metadataKey,
      .equalKeys effective.insights.resourceKey)]

theorem forall_conditions_iff :
    (∀ condition ∈ config.conditions overrides, condition.1) ↔ config.Usable overrides := by
  simp only [conditions, List.forall_mem_cons]
  constructor
  · rintro ⟨schema, nameField, category, resourceKey, metadataKey, keys_ne, _⟩
    exact ⟨schema, nameField, category, resourceKey, metadataKey, keys_ne⟩
  · rintro ⟨schema, nameField, category, resourceKey, metadataKey, keys_ne⟩
    exact ⟨schema, nameField, category, resourceKey, metadataKey, keys_ne, List.forall_mem_nil _⟩

theorem checkSchema_of_supported
    (supported : config.schema = none ∨ config.schema = some configSchema) :
    config.checkSchema = .ok () := by
  rcases supported with absent | named <;> simp [checkSchema, *]

theorem checkSchema_of_not_supported
    (unsupported : ¬ (config.schema = none ∨ config.schema = some configSchema)) :
    config.checkSchema = .error (.unsupportedSchema (config.schema.getD "")) := by
  unfold checkSchema
  cases named : config.schema with
  | none => exact absurd (.inl named) unsupported
  | some schema =>
    have differs : schema ≠ configSchema := by
      rintro rfl
      exact unsupported (.inr named)
    simp [differs]

/-- A setting is checked as what it comes to, since its default is not blank. -/
theorem nonBlank_of_hasVisible {setting standard : String} {given : Option String}
    (visible : Text.HasVisible (given.getD standard)) :
    nonBlank setting given standard = .ok (given.getD standard) := by
  cases given with
  | none => rfl
  | some value =>
    have notBlank : Text.isBlank value = false := isBlank_eq_false_iff.mpr visible
    simp [nonBlank, notBlank]

theorem nonBlank_of_not_hasVisible {setting standard : String} {given : Option String}
    (standard_visible : Text.HasVisible standard)
    (blank : ¬ Text.HasVisible (given.getD standard)) :
    nonBlank setting given standard = .error (.blankSetting setting) := by
  cases given with
  | none => exact absurd standard_visible blank
  | some value =>
    have isBlank : Text.isBlank value = true := isBlank_eq_true_iff.mpr blank
    simp [nonBlank, isBlank]

theorem checkedCategory_of_upperSnake {standard : String} {given : Option String}
    (upperSnake : Text.UpperSnake (given.getD standard)) :
    checkedCategory given standard = .ok (given.getD standard) := by
  cases given with
  | none => rfl
  | some value =>
    have category : isCategory value = true := isCategory_iff.mpr upperSnake
    simp [checkedCategory, category]

theorem checkedCategory_of_not_upperSnake {standard : String} {given : Option String}
    (standard_upperSnake : Text.UpperSnake standard)
    (other : ¬ Text.UpperSnake (given.getD standard)) :
    checkedCategory given standard = .error (.badCategory (given.getD standard)) := by
  cases given with
  | none => exact absurd standard_upperSnake other
  | some value =>
    have notCategory : ¬ isCategory value = true := fun category =>
      other (isCategory_iff.mp category)
    simp [checkedCategory, notCategory]

/-- Resolving checks the conditions in order. -/
theorem resolve_inOrder (config : FileConfig) (overrides : Overrides) :
    InOrder (config.effective overrides) (config.conditions overrides)
      (config.resolve overrides) := by
  -- The defaults pass their own checks.
  have name_visible : Text.HasVisible ReviewConfig.standard.nameField :=
    isBlank_eq_false_iff.mp (by decide)
  have category_upperSnake : Text.UpperSnake ReviewConfig.standard.insights.category :=
    isCategory_iff.mp (by decide)
  have resourceKey_visible : Text.HasVisible ReviewConfig.standard.insights.resourceKey :=
    isBlank_eq_false_iff.mp (by decide)
  have metadataKey_visible : Text.HasVisible ReviewConfig.standard.insights.metadataKey :=
    isBlank_eq_false_iff.mp (by decide)
  apply InOrder.bind checkSchema_of_supported checkSchema_of_not_supported
  apply InOrder.bind nonBlank_of_hasVisible (nonBlank_of_not_hasVisible name_visible)
  apply InOrder.bind checkedCategory_of_upperSnake
    (checkedCategory_of_not_upperSnake category_upperSnake)
  apply InOrder.bind nonBlank_of_hasVisible (nonBlank_of_not_hasVisible resourceKey_visible)
  apply InOrder.bind nonBlank_of_hasVisible (nonBlank_of_not_hasVisible metadataKey_visible)
  split
  · rename_i keys_eq
    exact .fails fun keys_ne => keys_ne keys_eq
  · rename_i keys_ne
    exact .holds keys_ne .done

theorem resolve_eq_ok_iff {effective : ReviewConfig} :
    config.resolve overrides = .ok effective ↔
      config.Usable overrides ∧ effective = config.effective overrides := by
  rw [(config.resolve_inOrder overrides).eq_ok_iff, forall_conditions_iff]

/-- The content keys of an effective configuration differ. -/
theorem keys_ne_of_resolve {effective : ReviewConfig}
    (resolved : config.resolve overrides = .ok effective) :
    effective.insights.resourceKey ≠ effective.insights.metadataKey := by
  obtain ⟨usable, rfl⟩ := resolve_eq_ok_iff.mp resolved
  exact usable.keys_ne

end FileConfig

/-- A reviewer that is set up has the effective configuration of the settings that the text stands
for. -/
theorem Reviewer.exists_settings_of_ofConfigText {text : String} {overrides : Overrides}
    {reviewer : Reviewer} (setUp : ofConfigText text overrides = .ok reviewer) :
    ∃ config, settingsOfText text = .ok config ∧ config.Usable overrides ∧
      reviewer.config = config.effective overrides := by
  unfold ofConfigText at setUp
  split at setUp
  · cases setUp
  · rename_i config settings_eq
    split at setUp
    · cases setUp
    · rename_i effective resolved
      cases setUp
      exact ⟨config, settings_eq, FileConfig.resolve_eq_ok_iff.mp resolved⟩

namespace FileConfig

/-- A configuration resolves to its effective settings where these are usable, and otherwise to the
error of the first condition that fails; so every reviewer that is set up has usable settings. -/
theorem resolve_effective_or_first_failure (config : FileConfig) (overrides : Overrides) :
    (∀ effective, config.resolve overrides = .ok effective ↔
      config.Usable overrides ∧ effective = config.effective overrides) ∧
    (∀ error, config.resolve overrides = .error error ↔ ∃ before condition after,
      config.conditions overrides = before ++ (condition, error) :: after ∧
        (∀ earlier ∈ before, earlier.1) ∧ ¬ condition) ∧
    (∀ name category hidden, { config with nameField := hidden }.resolve ⟨some name, category⟩ =
      config.resolve ⟨some name, category⟩) ∧
    (∀ category name hidden,
      { config with insights := { config.insights with category := hidden } }.resolve
          ⟨name, some category⟩ = config.resolve ⟨name, some category⟩) ∧
    ∀ text reviewer, Reviewer.ofConfigText text overrides = .ok reviewer →
      ∃ settings, Reviewer.settingsOfText text = .ok settings ∧ settings.Usable overrides ∧
        reviewer.config = settings.effective overrides := by
  -- What an override hides is not looked at, so the settings of the file may differ there.
  exact ⟨fun _ => resolve_eq_ok_iff, fun _ => (config.resolve_inOrder overrides).eq_error_iff,
    fun _ _ _ => rfl, fun _ _ _ => rfl, fun _ _ => Reviewer.exists_settings_of_ofConfigText⟩

/-- The blank name is hidden, and the one key that is given meets the default of the other. -/
theorem resolve_of_hidden_blank_name :
    resolve { nameField := some " ", insights := { metadataKey := some "resource" } }
      { nameField := some " id " } = .error (.equalKeys "resource") := by
  obtain ⟨_, error_iff, _⟩ := resolve_effective_or_first_failure
    { nameField := some " ", insights := { metadataKey := some "resource" } }
    { nameField := some " id " }
  rw [error_iff]
  refine ⟨[_, _, _, _, _], _, [], rfl, ?_, fun keys_ne => keys_ne rfl⟩
  simp only [List.forall_mem_cons]
  exact ⟨.inl trivial, isBlank_eq_false_iff.mp (by decide), isCategory_iff.mp (by decide),
    isBlank_eq_false_iff.mp (by decide), isBlank_eq_false_iff.mp (by decide),
    List.forall_mem_nil _⟩

end FileConfig
end PolicyReview
