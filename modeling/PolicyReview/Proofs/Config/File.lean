import PolicyReview.Config.File
import PolicyReview.Proofs.Outcome
import PolicyReview.Proofs.Toml.Sorted
import PolicyReview.Proofs.Toml.Spelling

/-!
# What configuration files say

A table of known keys with strings under them is a configuration file that says these strings, and
no other table is one.  How the table is written does not matter.
-/

namespace PolicyReview

namespace Entries

variable {ε σ α : Type}

/-- Entries are taken over one after the other.  If each that fits adds to what the earlier ones
said, all of them fit and say what is taken over in the end. -/
theorem foldlM_eq_ok_iff {step : σ → String × α → Except ε σ} (said : Entries α → σ)
    (fits : String × α → Prop) {table : Entries α} (ordered : table.Ordered)
    (step_iff : ∀ done, ∀ entry ∈ table, done.find? entry.1 = none → ∀ result,
      step (said done) entry = .ok result ↔ fits entry ∧ result = said (done ++ [entry]))
    {result : σ} : table.foldlM step (said []) = .ok result ↔
      (∀ entry ∈ table, fits entry) ∧ result = said table := by
  -- The entries that are left change, and what was said is always that of the entries before them.
  suffices ∀ done rest, done ++ rest = table →
      (rest.foldlM step (said done) = .ok result ↔
        (∀ entry ∈ rest, fits entry) ∧ result = said table) from this [] table rfl
  intro done rest all
  induction rest generalizing done with
  | nil =>
    rw [List.append_nil] at all
    rw [List.foldlM_nil, all]
    simpa [pure, Except.pure] using eq_comm
  | cons entry rest ih =>
    have entry_mem : entry ∈ table := all ▸ List.mem_append_right done List.mem_cons_self
    have new : done.find? entry.1 = none := find?_eq_none_of_ordered (all ▸ ordered)
    have rest_iff := ih (done ++ [entry]) (by simpa using all)
    rw [List.foldlM_cons, bind_eq_ok_iff, List.forall_mem_cons]
    simp only [step_iff done entry entry_mem new]
    constructor
    · rintro ⟨_, ⟨first_fits, rfl⟩, rest_eq⟩
      obtain ⟨rest_fit, result_eq⟩ := rest_iff.mp rest_eq
      exact ⟨⟨first_fits, rest_fit⟩, result_eq⟩
    · rintro ⟨⟨first_fits, rest_fit⟩, result_eq⟩
      exact ⟨_, ⟨first_fits, rfl⟩, rest_iff.mpr ⟨rest_fit, result_eq⟩⟩

end Entries

/-- The string that a value is. -/
def Toml.Value.text? : Value → Option String
  | .string text => some text
  | _ => none

/-- The entries of the table that a value is. -/
def Toml.Value.entries? : Value → Option (Entries Value)
  | .table entries => some entries
  | _ => none

/-- The string under a key. -/
def Toml.textUnder? (table : Entries Value) (key : String) : Option String :=
  (table.find? key).bind Value.text?

/-- The settings for insights that the strings of a table are. -/
def InsightSettings.said (entries : Entries Toml.Value) : InsightSettings where
  category := Toml.textUnder? entries "category"
  resourceKey := Toml.textUnder? entries "resource_key"
  metadataKey := Toml.textUnder? entries "metadata_key"

/-- The entry is a string under a key that insights have. -/
structure InsightSettings.FitsEntry (entry : String × Toml.Value) : Prop where
  known : entry.1 ∈ ["category", "resource_key", "metadata_key"]
  string : ∃ text, entry.2 = .string text

namespace FileConfig

/-- The entries under `insights`: none if there is no such table. -/
def insightEntries (table : Entries Toml.Value) : Entries Toml.Value :=
  ((table.find? "insights").bind Toml.Value.entries?).getD []

/-- The settings that the strings of a table are. -/
def said (table : Entries Toml.Value) : FileConfig where
  schema := Toml.textUnder? table "schema"
  nameField := Toml.textUnder? table "name_field"
  insights := .said (insightEntries table)

/-- The entry is a string under a known key, or a table of such entries under `insights`. -/
structure FitsEntry (entry : String × Toml.Value) : Prop where
  known : entry.1 ∈ ["schema", "name_field", "insights"]
  string : entry.1 ≠ "insights" → ∃ text, entry.2 = .string text
  insights : entry.1 = "insights" →
    ∃ entries, entry.2 = .table entries ∧ ∀ inner ∈ entries, InsightSettings.FitsEntry inner

section Strings

variable {σ : Type} {done : Entries Toml.Value} {key : String}

/-- To take over a value that has to be a string. -/
theorem setString_eq_ok_iff (set : String → σ) {value : Toml.Value} {fits : Prop} {said result : σ}
    (fits_iff : fits ↔ ∃ text, value = .string text)
    (said_eq : ∀ text, value = .string text → said = set text) :
    (stringOf value >>= fun text => Except.ok (set text)) = .ok result ↔
      fits ∧ result = said := by
  rw [fits_iff]
  cases value with
  | string text => simpa [stringOf, bind, Except.bind, said_eq text rfl] using eq_comm
  | _ => simp [stringOf, bind, Except.bind]

theorem textUnder?_concat (new : done.find? key = none) (value : Toml.Value) (other : String) :
    Toml.textUnder? (done ++ [(key, value)]) other =
      if other = key then value.text? else Toml.textUnder? done other := by
  rw [Toml.textUnder?, Entries.find?_concat new]
  split <;> rfl

theorem insightEntries_concat (new : done.find? key = none) (value : Toml.Value) :
    insightEntries (done ++ [(key, value)]) =
      if "insights" = key then value.entries?.getD [] else insightEntries done := by
  rw [insightEntries, Entries.find?_concat new]
  split <;> rfl

end Strings

theorem setInsight_eq_ok_iff {done : Entries Toml.Value} {key : String} {value : Toml.Value}
    (new : done.find? key = none) {result : InsightSettings} :
    setInsight (.said done) key value = .ok result ↔
      InsightSettings.FitsEntry (key, value) ∧ result = .said (done ++ [(key, value)]) := by
  have fits_iff (known : key ∈ insightKeys) :
      InsightSettings.FitsEntry (key, value) ↔ ∃ text, value = .string text :=
    ⟨fun fits => fits.string, fun string => ⟨known, string⟩⟩
  have text_eq := textUnder?_concat new value
  unfold setInsight
  split
  · rename_i category
    subst category
    refine setString_eq_ok_iff _ (fits_iff (by decide)) ?_
    rintro text rfl
    simp [InsightSettings.said, text_eq, Toml.Value.text?]
  · split
    · rename_i resource
      subst resource
      refine setString_eq_ok_iff _ (fits_iff (by decide)) ?_
      rintro text rfl
      simp [InsightSettings.said, text_eq, Toml.Value.text?]
    · split
      · rename_i metadata
        subst metadata
        refine setString_eq_ok_iff _ (fits_iff (by decide)) ?_
        rintro text rfl
        simp [InsightSettings.said, text_eq, Toml.Value.text?]
      · rename_i category resource metadata
        refine iff_of_false nofun ?_
        rintro ⟨⟨known, _⟩, _⟩
        simp [category, resource, metadata] at known

theorem insightsOfEntries_eq_foldlM (settings : InsightSettings) (entries : Entries Toml.Value) :
    insightsOfEntries settings entries =
      entries.foldlM (fun settings entry => setInsight settings entry.1 entry.2) settings := by
  induction entries generalizing settings with
  | nil => rfl
  | cons entry entries ih =>
    rw [insightsOfEntries, List.foldlM_cons]
    simp only [ih]

theorem insightsOf_eq_ok_iff {entries : Entries Toml.Value} (ordered : entries.Ordered)
    {result : InsightSettings} : insightsOf (.table entries) = .ok result ↔
      (∀ entry ∈ entries, InsightSettings.FitsEntry entry) ∧ result = .said entries := by
  rw [insightsOf, insightsOfEntries_eq_foldlM]
  exact Entries.foldlM_eq_ok_iff InsightSettings.said InsightSettings.FitsEntry ordered
    fun _ _ _ new _ => setInsight_eq_ok_iff new

theorem fitsEntry_string_iff {key : String} {value : Toml.Value} (known : key ∈ fileKeys)
    (differs : key ≠ "insights") : FitsEntry (key, value) ↔ ∃ text, value = .string text :=
  ⟨fun fits => fits.string differs,
    fun string => ⟨known, fun _ => string, fun same => absurd same differs⟩⟩

theorem fitsEntry_insights_iff {entries : Entries Toml.Value} :
    FitsEntry ("insights", .table entries) ↔
      ∀ inner ∈ entries, InsightSettings.FitsEntry inner := by
  constructor
  · intro fits
    obtain ⟨_, ⟨⟩, inner_fit⟩ := fits.insights rfl
    exact inner_fit
  · intro inner_fit
    have known : "insights" ∈ fileKeys := by decide
    exact ⟨known, fun differs => absurd rfl differs, fun _ => ⟨entries, rfl, inner_fit⟩⟩

/-- To take over the table of the insights. -/
theorem setInsights_eq_ok_iff {done entries : Entries Toml.Value} (ordered : entries.Ordered)
    (new : done.find? "insights" = none) {result : FileConfig} :
    (insightsOf (.table entries) >>= fun insights =>
        Except.ok { said done with insights := insights }) = .ok result ↔
      FitsEntry ("insights", .table entries) ∧
        result = said (done ++ [("insights", .table entries)]) := by
  have said_eq : said (done ++ [("insights", .table entries)]) =
      { said done with insights := .said entries } := by
    simp [said, textUnder?_concat new, insightEntries_concat new, Toml.Value.entries?]
  rw [bind_eq_ok_iff, fitsEntry_insights_iff, said_eq]
  simp only [insightsOf_eq_ok_iff ordered]
  constructor
  · rintro ⟨_, ⟨inner_fit, rfl⟩, ⟨⟩⟩
    exact ⟨inner_fit, rfl⟩
  · rintro ⟨inner_fit, rfl⟩
    exact ⟨_, ⟨inner_fit, rfl⟩, rfl⟩

theorem setKey_eq_ok_iff {done : Entries Toml.Value} {key : String} {value : Toml.Value}
    (section_sorted : key = "insights" →
      ∃ entries, value = .table entries ∧ Entries.Ordered entries)
    (new : done.find? key = none) {result : FileConfig} :
    setKey (said done) key value = .ok result ↔
      FitsEntry (key, value) ∧ result = said (done ++ [(key, value)]) := by
  have text_eq := textUnder?_concat new value
  have insights_eq := insightEntries_concat new value
  unfold setKey
  split
  · rename_i schema
    subst schema
    refine setString_eq_ok_iff _ (fitsEntry_string_iff (by decide) (by decide)) ?_
    rintro text rfl
    simp [said, text_eq, insights_eq, Toml.Value.text?]
  · split
    · rename_i name
      subst name
      refine setString_eq_ok_iff _ (fitsEntry_string_iff (by decide) (by decide)) ?_
      rintro text rfl
      simp [said, text_eq, insights_eq, Toml.Value.text?]
    · split
      · rename_i insights
        subst insights
        obtain ⟨entries, rfl, ordered⟩ := section_sorted rfl
        exact setInsights_eq_ok_iff ordered new
      · rename_i schema name insights
        refine iff_of_false nofun ?_
        rintro ⟨⟨known, _⟩, _⟩
        simp [schema, name, insights] at known

theorem ofEntries_eq_foldlM (config : FileConfig) (table : Entries Toml.Value) :
    ofEntries config table =
      table.foldlM (fun config entry => setKey config entry.1 entry.2) config := by
  induction table generalizing config with
  | nil => rfl
  | cons entry table ih =>
    rw [ofEntries, List.foldlM_cons]
    simp only [ih]

theorem ofTable_eq_ok_iff {table : Entries Toml.Value} (sorted : (Toml.Value.table table).Sorted)
    (section_table : ∀ value, ("insights", value) ∈ table → ∃ entries, value = .table entries)
    {result : FileConfig} : ofTable table = .ok result ↔
      (∀ entry ∈ table, FitsEntry entry) ∧ result = said table := by
  obtain _ | _ | ⟨ordered, values_sorted⟩ := sorted
  · contradiction
  rw [ofTable, ofEntries_eq_foldlM]
  apply Entries.foldlM_eq_ok_iff said FitsEntry ordered
  rintro done ⟨key, value⟩ entry_mem new result
  apply setKey_eq_ok_iff _ new
  rintro rfl
  obtain ⟨entries, rfl⟩ := section_table value entry_mem
  obtain _ | _ | ⟨section_ordered, _⟩ := values_sorted _ entry_mem
  · contradiction
  · exact ⟨entries, rfl, section_ordered⟩

theorem ofText_eq_ok_iff {text : String} {table : Entries Toml.Value}
    (read : Toml.ofText? text = some table)
    (section_table : ∀ value, ("insights", value) ∈ table → ∃ entries, value = .table entries)
    {result : FileConfig} : ofText text = .ok result ↔
      (∀ entry ∈ table, FitsEntry entry) ∧ result = said table := by
  have text_eq : ofText text = (ofTable table).mapError (tableError table) := by
    rw [ofText, read]
  rw [← ofTable_eq_ok_iff (Toml.sorted_of_ofText? read) section_table, text_eq]
  cases ofTable table with
  | error error => exact iff_of_false nofun nofun
  | ok config => rfl

/-- What a configuration file says is in its statements. -/
theorem ofText_eq_of_tableOf?_eq {text other : String} {statements others : List Toml.Statement}
    (read : Toml.statements? text = some statements)
    (other_read : Toml.statements? other = some others)
    (same : Toml.tableOf? statements = Toml.tableOf? others) : ofText text = ofText other := by
  have tables_eq : Toml.ofText? text = Toml.ofText? other := by
    rw [Toml.ofText?_eq, Toml.ofText?_eq, read, other_read, Option.bind_some, Option.bind_some,
      same]
  rw [ofText, ofText, tables_eq]

/-- A table of strings under known keys is a configuration file, whose settings are these strings,
and no other table is one unless it has something else than a table under `insights`.  Neither the
order of the lines under a header matters nor in which way the table of the insights is written. -/
theorem ofText_accepts_its_model :
    (∀ text table, Toml.ofText? text = some table →
      (∀ value, ("insights", value) ∈ table → ∃ entries, value = .table entries) →
      ∀ config, ofText text = .ok config ↔
        (∀ entry ∈ table, FitsEntry entry) ∧ config = said table) ∧
    (∀ (text other : String) (lines others : List Toml.Line) (before after : List Toml.Statement),
      lines.Perm others →
      Toml.statements? text = some (before ++ lines.map .line ++ after) →
      Toml.statements? other = some (before ++ others.map .line ++ after) →
      ofText text = ofText other) ∧
    ∀ (text other : String) (lines insights : List Toml.Line)
      (statements others : List Toml.Statement),
      (∀ line ∈ lines, line.first ≠ "insights") →
      Toml.statements? text = some statements → Toml.statements? other = some others →
      Toml.SpellsTable "insights" lines insights statements →
      Toml.SpellsTable "insights" lines insights others →
      ofText text = ofText other := by
  refine ⟨fun text table read section_table config => ofText_eq_ok_iff read section_table,
    fun text other lines others before after perm read other_read => ?_,
    fun text other lines insights statements others apart read other_read spells other_spells => ?_⟩
  · exact ofText_eq_of_tableOf?_eq read other_read (Toml.tableOf?_eq_of_perm perm before after)
  · apply ofText_eq_of_tableOf?_eq read other_read
    rw [Toml.tableOf?_of_spellsTable spells apart, Toml.tableOf?_of_spellsTable other_spells apart]

/-- The line that writes a string under a key. -/
def stringLine (key text : String) : Toml.Line :=
  ⟨[], key, .whole (.string text)⟩

/-- The insights under their header, there in the other order, by dotted keys and as an inline
table. -/
theorem ofText_of_four_spellings :
    ofText "name_field = 'n'\n[insights]\ncategory = 'A'\nresource_key = 'r'" =
      .ok { nameField := some "n", insights := { category := some "A", resourceKey := some "r" } } ∧
    ofText "name_field = 'n'\n[insights]\nresource_key = 'r'\ncategory = 'A'" =
      ofText "name_field = 'n'\n[insights]\ncategory = 'A'\nresource_key = 'r'" ∧
    ofText "insights.category = 'A'\nname_field = 'n'\ninsights.resource_key = 'r'" =
      ofText "name_field = 'n'\n[insights]\ncategory = 'A'\nresource_key = 'r'" ∧
    ofText "insights = \x7bresource_key = 'r', category = 'A'\x7d\nname_field = 'n'" =
      ofText "name_field = 'n'\n[insights]\ncategory = 'A'\nresource_key = 'r'" := by
  obtain ⟨ok_iff, same_of_perm, same_of_spells⟩ := ofText_accepts_its_model
  have header_read : Toml.statements?
      "name_field = 'n'\n[insights]\ncategory = 'A'\nresource_key = 'r'" =
        some [.line (stringLine "name_field" "n"), .header [] "insights",
          .line (stringLine "category" "A"), .line (stringLine "resource_key" "r")] := by
    simp only [Toml.statements?, String.reduceToList]
    rfl
  have other_order_read : Toml.statements?
      "name_field = 'n'\n[insights]\nresource_key = 'r'\ncategory = 'A'" =
        some [.line (stringLine "name_field" "n"), .header [] "insights",
          .line (stringLine "resource_key" "r"), .line (stringLine "category" "A")] := by
    simp only [Toml.statements?, String.reduceToList]
    rfl
  have dotted_read : Toml.statements?
      "insights.category = 'A'\nname_field = 'n'\ninsights.resource_key = 'r'" =
        some ([(stringLine "category" "A").under "insights", stringLine "name_field" "n",
          (stringLine "resource_key" "r").under "insights"].map .line) := by
    simp only [Toml.statements?, String.reduceToList]
    rfl
  have inline_read : Toml.statements?
      "insights = \x7bresource_key = 'r', category = 'A'\x7d\nname_field = 'n'" =
        some ([⟨[], "insights", .inline [⟨[], "resource_key", .string "r"⟩,
          ⟨[], "category", .string "A"⟩]⟩, stringLine "name_field" "n"].map .line) := by
    simp only [Toml.statements?, String.reduceToList]
    rfl
  have header_spells : Toml.SpellsTable "insights" [stringLine "name_field" "n"]
      [stringLine "category" "A", stringLine "resource_key" "r"]
        [.line (stringLine "name_field" "n"), .header [] "insights",
          .line (stringLine "category" "A"), .line (stringLine "resource_key" "r")] :=
    .header (.refl [_]) (.refl [_, _])
  have apart : ∀ line ∈ [stringLine "name_field" "n"], line.first ≠ "insights" :=
    List.forall_mem_singleton.mpr (by decide)
  refine ⟨?_, ?_, ?_, ?_⟩
  · have table_read : Toml.ofText?
        "name_field = 'n'\n[insights]\ncategory = 'A'\nresource_key = 'r'" =
          some [("insights", .table [("category", .string "A"), ("resource_key", .string "r")]),
            ("name_field", .string "n")] := by
      rw [Toml.ofText?_eq, header_read]
      rfl
    have name_fits : FitsEntry ("name_field", .string "n") :=
      (fitsEntry_string_iff (by decide) (by decide)).mpr ⟨_, rfl⟩
    have category_fits : InsightSettings.FitsEntry ("category", .string "A") :=
      ⟨by decide, _, rfl⟩
    have resource_fits : InsightSettings.FitsEntry ("resource_key", .string "r") :=
      ⟨by decide, _, rfl⟩
    refine (ok_iff _ _ table_read (by simp) _).mpr ⟨?_, rfl⟩
    simp [fitsEntry_insights_iff, name_fits, category_fits, resource_fits]
  · exact same_of_perm _ _ [stringLine "resource_key" "r", stringLine "category" "A"]
      [stringLine "category" "A", stringLine "resource_key" "r"]
      [.line (stringLine "name_field" "n"), .header [] "insights"] [] (.swap _ _ _)
      other_order_read header_read
  · exact same_of_spells _ _ _ _ _ _ apart dotted_read header_read
      (.dotted (List.cons_ne_nil _ _) (.swap _ _ _)) header_spells
  · exact same_of_spells _ _ _ _ _ _ apart inline_read header_read
      (.inline (.swap _ _ _) rfl (.swap _ _ _)) header_spells

end FileConfig
end PolicyReview
