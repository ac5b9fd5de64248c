import PolicyReview.Dynamic.Basic

/-!
# Reading along paths

A path is followed key by key, so a path in two parts is followed by its parts.  A string is read
along a path exactly when the path leads to a string.  Otherwise the error names the keys of the
path joined by dots, and the type of what the path leads to if it leads anywhere.  To read a string
under a key of a table is to read along a path of one key.
-/

namespace PolicyReview
namespace Dynamic

variable {value : Dynamic}

@[simp]
theorem get?_map (entries : DynamicMap) (key : String) :
    (map entries).get? key = Entries.find? entries key :=
  rfl

/-- Only tables have keys. -/
theorem get?_eq_some_iff {key : String} {found : Dynamic} :
    value.get? key = some found ↔
      ∃ entries, value = map entries ∧ Entries.find? entries key = some found := by
  cases value <;> simp [get?, asMap?]

theorem get?_eq_none_iff {key : String} :
    value.get? key = none ↔ ∀ entries, value = map entries → Entries.find? entries key = none := by
  cases value <;> simp [get?, asMap?]

/-- A path is followed key by key for as long as there are values. -/
theorem getPath?_eq_foldlM (value : Dynamic) (path : List String) :
    value.getPath? path = path.foldlM get? value := by
  induction path generalizing value with
  | nil => rfl
  | cons key path ih => exact congrArg (value.get? key).bind (funext ih)

theorem getPath?_append (value : Dynamic) (path more : List String) :
    value.getPath? (path ++ more) =
      (value.getPath? path).bind fun reached => reached.getPath? more := by
  simp only [getPath?_eq_foldlM, List.foldlM_append]
  rfl

/-- A path breaks off in a value: at some step the value reached is no table or lacks the key. -/
def BreaksOff (value : Dynamic) (path : List String) : Prop :=
  ∃ before key after reached, path = before ++ key :: after ∧
    value.getPath? before = some reached ∧
      ∀ entries, reached = map entries → Entries.find? entries key = none

theorem breaksOff_cons_of_none {key : String} (path : List String)
    (none_found : value.get? key = none) : value.BreaksOff (key :: path) :=
  ⟨[], key, path, value, rfl, rfl, get?_eq_none_iff.mp none_found⟩

theorem breaksOff_cons_iff_of_some {key : String} {path : List String} {next : Dynamic}
    (found : value.get? key = some next) :
    value.BreaksOff (key :: path) ↔ next.BreaksOff path := by
  constructor
  · rintro ⟨before, other, after, reached, path_eq, leads, lacking⟩
    cases before with
    | nil =>
      -- The first step is made, so it is not the one at which the path breaks off.
      cases path_eq
      cases leads
      exact absurd (get?_eq_none_iff.mpr lacking) (by simp [found])
    | cons first before =>
      cases path_eq
      exact ⟨before, other, after, reached, rfl, by simpa [getPath?, found] using leads, lacking⟩
  · rintro ⟨before, other, after, reached, rfl, leads, lacking⟩
    exact ⟨key :: before, other, after, reached, rfl, by simpa [getPath?, found] using leads,
      lacking⟩

theorem getPath?_eq_none_iff {path : List String} :
    value.getPath? path = none ↔ value.BreaksOff path := by
  induction path generalizing value with
  | nil =>
    refine iff_of_false nofun ?_
    rintro ⟨before, key, after, _, path_eq, _⟩
    simp at path_eq
  | cons key path ih =>
    rw [getPath?]
    cases found : value.get? key with
    | none => exact iff_of_true rfl (breaksOff_cons_of_none path found)
    | some next => exact ih.trans (breaksOff_cons_iff_of_some found).symm

theorem typeName_eq_string_iff : value.typeName = "a string" ↔ ∃ text, value = .string text := by
  cases value <;> simp [typeName]

theorem getPathString_eq_ok_iff {path : List String} {text : String} :
    value.getPathString path = .ok text ↔ value.getPath? path = some (.string text) := by
  rw [getPathString]
  cases value.getPath? path with
  | none => simp
  | some found => cases found <;> simp [asString?]

/-- A string cannot be read where the path breaks off or leads to something else. -/
theorem getPathString_eq_error_iff {path : List String} {error : FieldError} :
    value.getPathString path = .error error ↔
      value.getPath? path = none ∧ error = .missing (".".intercalate path) ∨
      ∃ found, value.getPath? path = some found ∧ (∀ text, found ≠ .string text) ∧
        error = .notString (".".intercalate path) found.typeName := by
  rw [getPathString]
  cases value.getPath? path with
  | none => simp [eq_comm]
  | some found => cases found <;> simp [asString?, eq_comm]

/-- The two readers of strings have the same words for their errors. -/
theorem getString_eq_getPathString (entries : DynamicMap) (key : String) :
    getString entries key = (map entries).getPathString [key] := by
  rw [getString, getPathString, getPath?, get?_map, String.intercalate_singleton]
  cases Entries.find? entries key with
  | none => rfl
  | some found => cases found <;> rfl

/-- The laws of access along paths: paths are followed by their parts; a string is read exactly
where the path leads to one, is missing exactly where the path breaks off, and else there is
something of another type; errors name the keys of the path joined by dots; and to read under a key
of a table is to read along a path of one key. -/
theorem path_access (value : Dynamic) :
    value.getPath? [] = some value ∧
    (∀ path more, value.getPath? (path ++ more) =
      (value.getPath? path).bind fun reached => reached.getPath? more) ∧
    (∀ path text, value.getPathString path = .ok text ↔
      value.getPath? path = some (.string text)) ∧
    (∀ path field, value.getPathString path = .error (.missing field) ↔
      value.BreaksOff path ∧ field = ".".intercalate path) ∧
    (∀ path field type, value.getPathString path = .error (.notString field type) ↔
      ∃ found, value.getPath? path = some found ∧ found.typeName ≠ "a string" ∧
        field = ".".intercalate path ∧ type = found.typeName) ∧
    ∀ entries key, getString entries key = (map entries).getPathString [key] := by
  refine ⟨rfl, getPath?_append value, fun _ _ => getPathString_eq_ok_iff, ?_, ?_,
    getString_eq_getPathString⟩
  · intro path field
    simp [getPathString_eq_error_iff, getPath?_eq_none_iff]
  · intro path field type
    simp [getPathString_eq_error_iff, typeName_eq_string_iff]

end Dynamic
end PolicyReview
