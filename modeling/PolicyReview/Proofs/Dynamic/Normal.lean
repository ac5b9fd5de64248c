import PolicyReview.Dynamic.Json
import PolicyReview.Proofs.Dynamic.Parts

/-!
# Normal values

Text does not tell an unsigned integer from a signed one, so a value that is read holds unsigned
integers only above the signed range.  The normal form of a value is what it becomes when it is
written and read: unsigned integers in the signed range become signed, and nothing else changes.
-/

namespace PolicyReview
namespace Dynamic

mutual

/-- The value with every unsigned integer in the signed range made signed. -/
def normal : Dynamic → Dynamic
  | .uint value =>
    if value.toNat ≤ 0x7FFFFFFFFFFFFFFF then .int (Int64.ofNat value.toNat) else .uint value
  | .list items => .list (itemsNormal items)
  | .map entries => .map (entriesNormal entries)
  | value => value

/-- The normal forms of the items of a list. -/
def itemsNormal : List Dynamic → List Dynamic
  | [] => []
  | item :: items => item.normal :: itemsNormal items

/-- The normal forms of the entries of a table, under the same keys. -/
def entriesNormal : List (String × Dynamic) → List (String × Dynamic)
  | [] => []
  | (key, value) :: entries => (key, value.normal) :: entriesNormal entries

end

theorem itemsNormal_eq_map (items : List Dynamic) : itemsNormal items = items.map normal := by
  induction items with
  | nil => rfl
  | cons item items ih => rw [itemsNormal, ih, List.map_cons]

theorem entriesNormal_eq_map (entries : List (String × Dynamic)) :
    entriesNormal entries = entries.map (Prod.map id normal) := by
  induction entries with
  | nil => rfl
  | cons entry entries ih => rw [entriesNormal, ih, List.map_cons]; rfl

/-- A value and its normal form are equally deep. -/
@[simp]
theorem depth_normal (value : Dynamic) : value.normal.depth = value.depth := by
  induction value with
  | null => rfl
  | bool value => rfl
  | int value => rfl
  | float word => rfl
  | string value => rfl
  | uint value =>
    rw [normal]
    split <;> rfl
  | list items ih =>
    rw [normal, depth, depth]
    congr 1
    induction items with
    | nil => rfl
    | cons item items items_ih =>
      rw [itemsNormal, itemsDepth, itemsDepth, ih item List.mem_cons_self,
        items_ih fun other other_mem => ih other (List.mem_cons_of_mem _ other_mem)]
  | map entries ih =>
    rw [normal, depth, depth]
    congr 1
    induction entries with
    | nil => rfl
    | cons entry entries entries_ih =>
      obtain ⟨key, value⟩ := entry
      rw [entriesNormal, entriesDepth, entriesDepth, ih (key, value) List.mem_cons_self,
        entries_ih fun other other_mem => ih other (List.mem_cons_of_mem _ other_mem)]

theorem ofUInt64_eq_normal (value : UInt64) : ofUInt64 value = (uint value).normal := by
  have same : value.toInt64 = Int64.ofNat value.toNat := by
    rw [← Int64.toBitVec_inj]
    simp
  rw [ofUInt64, normal, same]
  by_cases small : value.toNat < 0x8000000000000000
  · rw [if_pos small, if_pos (Nat.le_of_lt_add_one small)]
  · rw [if_neg small, if_neg (fun le => small (Nat.lt_add_one_of_le le))]

/-- The number of a signed integer is read as the signed integer. -/
theorem ofNumber_numberOfInt (value : Int64) : ofNumber (numberOfInt value) = .int value := by
  rw [numberOfInt]
  split
  · rfl
  · rename_i notNegative
    have nonneg : 0 ≤ value := Int64.not_lt.mp notNegative
    have small : value.toUInt64.toNat < 0x8000000000000000 := by
      have below := value.toInt_lt
      have toNat_eq : value.toUInt64.toNat = value.toInt.toNat := Int64.toNat_toUInt64_of_le nonneg
      omega
    rw [ofNumber, ofUInt64, if_pos small]
    rfl

end Dynamic
end PolicyReview
