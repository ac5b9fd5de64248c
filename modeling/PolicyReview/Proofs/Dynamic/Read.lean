import PolicyReview.Dynamic.Json
import PolicyReview.Proofs.Dynamic.Parts
import PolicyReview.Proofs.Json.Yields

/-!
# Dynamic values that are read

A dynamic value that is read from a text has finite words only, its tables are sorted, and it is no
deeper than the budget of brackets it was read within.
-/

namespace PolicyReview
namespace Dynamic

open Json (Yields)

/-- The value is one that can be read within a budget of brackets. -/
structure Fits (budget : Nat) (value : Dynamic) : Prop where
  finite : value.AllFinite
  ordered : value.Ordered
  depth_le : value.depth ≤ budget

theorem Fits.mono {budget more : Nat} {value : Dynamic} (fits : value.Fits budget)
    (le : budget ≤ more) : value.Fits more :=
  ⟨fits.finite, fits.ordered, Nat.le_trans fits.depth_le le⟩

theorem fits_ofNumber (budget : Nat) (number : Json.Number) : (ofNumber number).Fits budget := by
  cases number with
  | natural value =>
    rw [ofNumber, ofUInt64]
    split <;> exact ⟨List.forall_mem_nil _, trivial, Nat.zero_le _⟩
  | negative value isNegative => exact ⟨List.forall_mem_nil _, trivial, Nat.zero_le _⟩
  | float word isFinite =>
    exact ⟨List.forall_mem_singleton.mpr isFinite, trivial, Nat.zero_le _⟩

theorem fits_ofScalar (budget : Nat) (value : Json.Scalar) : (ofScalar value).Fits budget := by
  cases value with
  | number value => exact fits_ofNumber budget value
  | _ => exact ⟨List.forall_mem_nil _, trivial, Nat.zero_le _⟩

theorem fits_list {budget : Nat} {items : List Dynamic}
    (parts : ∀ item ∈ items, item.Fits budget) : (list items).Fits (budget + 1) where
  finite := allFinite_list_iff.mpr fun item item_mem => (parts item item_mem).finite
  ordered := itemsOrdered_iff.mpr fun item item_mem => (parts item item_mem).ordered
  depth_le := Nat.add_le_add_right
    (itemsDepth_le_iff.mpr fun item item_mem => (parts item item_mem).depth_le) 1

theorem fits_map {budget : Nat} {entries : DynamicMap} (ordered : entries.Ordered)
    (parts : ∀ entry ∈ entries, entry.2.Fits budget) : (map entries).Fits (budget + 1) where
  finite := allFinite_map_iff.mpr fun entry entry_mem => (parts entry entry_mem).finite
  ordered :=
    ⟨ordered, entriesOrdered_iff.mpr fun entry entry_mem => (parts entry entry_mem).ordered⟩
  depth_le := Nat.add_le_add_right
    (entriesDepth_le_iff.mpr fun entry entry_mem => (parts entry entry_mem).depth_le) 1

theorem inherited_fits : Json.Inherited assembly Fits where
  scalar := fits_ofScalar
  list := fits_list
  object parts := fits_map (Entries.ordered_ofMembers _) fun entry entry_mem =>
    parts entry (Entries.mem_of_mem_ofMembers entry_mem)

/-- Whatever is read within a budget fits the budget. -/
theorem read_yields (budget : Nat) : Yields (read budget) (Fits budget) :=
  Json.readValue_yields inherited_fits budget

theorem readMap_yields (budget : Nat) :
    Yields (readMap budget) fun entries => (map entries).Fits budget := by
  cases budget with
  -- A table opens a bracket, so nothing is read without a budget.
  | zero =>
    intro text entries rest map_read
    unfold readMap Json.readTableOf at map_read
    split at map_read
    · obtain ⟨inner, spent, _⟩ := exists_of_bind_eq_ok map_read
      cases spent
    · exact absurd map_read Json.wrongType_ne_ok
  | succ budget =>
    have entry_yields (inner : Nat) (inner_lt : inner < budget + 1) :
        Yields (read inner) (Fits budget) :=
      (read_yields inner).imp fun _ fits => fits.mono (Nat.le_of_lt_add_one inner_lt)
    exact (Json.readTableOf_yields entry_yields).imp fun _ table => fits_map table.1 table.2

end Dynamic
end PolicyReview
