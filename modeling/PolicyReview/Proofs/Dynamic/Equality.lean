import PolicyReview.Proofs.Structured.Readers

/-!
# Equality up to the signs of zeros

Equality of dynamic values tells apart whatever differs, but for a word that is not finite and for
the sign of a zero.  Structured values hold finite words only, in numbers of another shape, and are
equal exactly where the dynamic values that they stand for are.
-/

namespace PolicyReview

namespace Binary64

/-- The word without the sign of a zero. -/
def withoutZeroSign (word : Binary64) : Binary64 :=
  if word.code = 0 then zero false else word

/-- A finite word equals the words that differ from it in the sign of a zero at most. -/
theorem equal_iff {word other : Binary64} (finite : word.isFinite = true) :
    word.equal other = true ↔ word.withoutZeroSign = other.withoutZeroSign := by
  obtain ⟨negative, code, code_lt⟩ := word
  obtain ⟨otherNegative, otherCode, other_lt⟩ := other
  simp only [isFinite, infinityCode] at finite
  simp only [equal, isNaN, withoutZeroSign, infinityCode, zero]
  grind

@[simp]
theorem isFinite_withoutZeroSign (word : Binary64) :
    word.withoutZeroSign.isFinite = word.isFinite := by
  unfold withoutZeroSign
  split
  · rename_i isZero
    rw [isFinite, isFinite, isZero]
    rfl
  · rfl

end Binary64

namespace Json.Number

/-- The number without the sign of a zero. -/
def withoutZeroSign : Number → Number
  | .float word isFinite =>
    .float word.withoutZeroSign (word.isFinite_withoutZeroSign.trans isFinite)
  | number => number

theorem equal_iff (number other : Number) :
    number.equal other = true ↔ number.withoutZeroSign = other.withoutZeroSign := by
  cases number with
  | natural value => cases other <;> simp [equal, withoutZeroSign]
  | negative value _ => cases other <;> simp [equal, withoutZeroSign]
  | float word isFinite =>
    cases other <;> simp [equal, withoutZeroSign, Binary64.equal_iff isFinite]

end Json.Number

namespace Dynamic

mutual

/-- The value without the signs of zeros. -/
def withoutZeroSigns : Dynamic → Dynamic
  | .float word => .float word.withoutZeroSign
  | .list items => .list (itemsWithoutZeroSigns items)
  | .map entries => .map (entriesWithoutZeroSigns entries)
  | value => value

/-- The items of a list without the signs of zeros. -/
def itemsWithoutZeroSigns : List Dynamic → List Dynamic
  | [] => []
  | item :: items => item.withoutZeroSigns :: itemsWithoutZeroSigns items

/-- The entries of a table without the signs of zeros, under the same keys. -/
def entriesWithoutZeroSigns : List (String × Dynamic) → List (String × Dynamic)
  | [] => []
  | (key, value) :: entries => (key, value.withoutZeroSigns) :: entriesWithoutZeroSigns entries

end

theorem itemsWithoutZeroSigns_eq_map (items : List Dynamic) :
    itemsWithoutZeroSigns items = items.map withoutZeroSigns := by
  induction items with
  | nil => rfl
  | cons item items ih => rw [itemsWithoutZeroSigns, ih, List.map_cons]

theorem entriesWithoutZeroSigns_eq_map (entries : List (String × Dynamic)) :
    entriesWithoutZeroSigns entries = entries.map (Prod.map id withoutZeroSigns) := by
  induction entries with
  | nil => rfl
  | cons entry entries ih => rw [entriesWithoutZeroSigns, ih, List.map_cons]; rfl

theorem allFinite_withoutZeroSigns {value : Dynamic} (finite : value.AllFinite) :
    value.withoutZeroSigns.AllFinite := by
  induction value with
  | null => exact finite
  | bool value => exact finite
  | int value => exact finite
  | uint value => exact finite
  | string value => exact finite
  | float word =>
    have word_finite := finite word List.mem_cons_self
    exact List.forall_mem_singleton.mpr (word.isFinite_withoutZeroSign.trans word_finite)
  | list items ih =>
    rw [allFinite_list_iff] at finite
    rw [withoutZeroSigns, allFinite_list_iff, itemsWithoutZeroSigns_eq_map, List.forall_mem_map]
    exact fun item item_mem => ih item item_mem (finite item item_mem)
  | map entries ih =>
    rw [allFinite_map_iff] at finite
    rw [withoutZeroSigns, allFinite_map_iff, entriesWithoutZeroSigns_eq_map, List.forall_mem_map]
    exact fun entry entry_mem => ih entry entry_mem (finite entry entry_mem)

theorem normal_withoutZeroSigns (value : Dynamic) :
    value.withoutZeroSigns.normal = value.normal.withoutZeroSigns := by
  induction value with
  | null => rfl
  | bool value => rfl
  | int value => rfl
  | float word => rfl
  | string value => rfl
  | uint value =>
    change (uint value).normal = (uint value).normal.withoutZeroSigns
    rw [normal]
    split <;> rfl
  | list items ih =>
    rw [withoutZeroSigns, normal, normal, withoutZeroSigns, itemsNormal_eq_map,
      itemsNormal_eq_map, itemsWithoutZeroSigns_eq_map, itemsWithoutZeroSigns_eq_map,
      List.map_map, List.map_map]
    exact congrArg list (List.map_congr_left ih)
  | map entries ih =>
    rw [withoutZeroSigns, normal, normal, withoutZeroSigns, entriesNormal_eq_map,
      entriesNormal_eq_map, entriesWithoutZeroSigns_eq_map, entriesWithoutZeroSigns_eq_map,
      List.map_map, List.map_map]
    refine congrArg map (List.map_congr_left fun entry entry_mem => ?_)
    exact congrArg (entry.1, ·) (ih entry entry_mem)

/-- Values with finite words are equal exactly where they are the same but for signs of zeros. -/
theorem equal_iff {value other : Dynamic} (finite : value.AllFinite) :
    value.equal other = true ↔ value.withoutZeroSigns = other.withoutZeroSigns := by
  induction value generalizing other with
  | null => cases other <;> simp [equal, withoutZeroSigns]
  | bool value => cases other <;> simp [equal, withoutZeroSigns]
  | int value => cases other <;> simp [equal, withoutZeroSigns]
  | uint value => cases other <;> simp [equal, withoutZeroSigns]
  | string value => cases other <;> simp [equal, withoutZeroSigns]
  | float word =>
    have word_finite := finite word List.mem_cons_self
    cases other <;> simp [equal, withoutZeroSigns, Binary64.equal_iff word_finite]
  | list items ih =>
    rw [allFinite_list_iff] at finite
    have items_iff (others : List Dynamic) : equalItems items others = true ↔
        itemsWithoutZeroSigns items = itemsWithoutZeroSigns others := by
      induction items generalizing others with
      | nil => cases others <;> simp [equalItems, itemsWithoutZeroSigns]
      | cons item items items_ih =>
        obtain ⟨item_finite, items_finite⟩ := List.forall_mem_cons.mp finite
        cases others with
        | nil => simp [equalItems, itemsWithoutZeroSigns]
        | cons other others =>
          rw [equalItems, Bool.and_eq_true, ih item List.mem_cons_self item_finite,
            items_ih (fun other other_mem => ih other (List.mem_cons_of_mem _ other_mem))
              items_finite, itemsWithoutZeroSigns, itemsWithoutZeroSigns, List.cons.injEq]
    cases other <;> simp [equal, withoutZeroSigns, items_iff]
  | map entries ih =>
    rw [allFinite_map_iff] at finite
    have entries_iff (others : List (String × Dynamic)) : equalEntries entries others = true ↔
        entriesWithoutZeroSigns entries = entriesWithoutZeroSigns others := by
      induction entries generalizing others with
      | nil => cases others <;> simp [equalEntries, entriesWithoutZeroSigns]
      | cons entry entries entries_ih =>
        obtain ⟨key, value⟩ := entry
        obtain ⟨value_finite, entries_finite⟩ := List.forall_mem_cons.mp finite
        cases others with
        | nil => simp [equalEntries, entriesWithoutZeroSigns]
        | cons other others =>
          obtain ⟨otherKey, otherValue⟩ := other
          rw [equalEntries, Bool.and_eq_true, Bool.and_eq_true, beq_iff_eq,
            ih (key, value) List.mem_cons_self value_finite,
            entries_ih (fun other other_mem => ih other (List.mem_cons_of_mem _ other_mem))
              entries_finite, entriesWithoutZeroSigns, entriesWithoutZeroSigns, List.cons.injEq,
            Prod.mk.injEq]
    cases other <;> simp [equal, withoutZeroSigns, entries_iff]

/-- A converted number is an integer or a word. -/
theorem exists_ofNumber_eq (number : Json.Number) : (∃ value, ofNumber number = .int value) ∨
    (∃ value, ofNumber number = .uint value) ∨ ∃ word, ofNumber number = .float word := by
  cases number with
  | natural value =>
    rw [ofNumber, ofUInt64]
    split
    · exact .inl ⟨_, rfl⟩
    · exact .inr (.inl ⟨_, rfl⟩)
  | negative value _ => exact .inl ⟨_, rfl⟩
  | float word _ => exact .inr (.inr ⟨_, rfl⟩)

theorem ofNumber_injective : Function.Injective ofNumber := by
  intro number other same
  have image_eq := Structured.image?_ofNumber number
  rw [same, Structured.image?_ofNumber] at image_eq
  cases image_eq
  rfl

theorem withoutZeroSigns_ofNumber (number : Json.Number) :
    (ofNumber number).withoutZeroSigns = ofNumber number.withoutZeroSign := by
  cases number with
  | natural value =>
    change (ofUInt64 value).withoutZeroSigns = ofUInt64 value
    unfold ofUInt64
    split <;> rfl
  | negative value _ => rfl
  | float word _ => rfl

end Dynamic

namespace Structured

/-- Conversion neither makes two numbers equal nor tells them apart. -/
theorem equal_ofNumber (number other : Json.Number) :
    (Dynamic.ofNumber number).equal (Dynamic.ofNumber other) = number.equal other := by
  have finite : (Dynamic.ofNumber number).AllFinite :=
    exists_image?_iff.mp ⟨_, image?_ofNumber number⟩
  rw [Bool.eq_iff_iff, Dynamic.equal_iff finite, Dynamic.withoutZeroSigns_ofNumber,
    Dynamic.withoutZeroSigns_ofNumber, Dynamic.ofNumber_injective.eq_iff, Json.Number.equal_iff]

/-- A converted number equals no value of another kind. -/
theorem equal_ofNumber_of_ne {value : Structured} (notNumber : ∀ number, value ≠ .number number)
    (number : Json.Number) : (Dynamic.ofNumber number).equal value.toDynamic = false ∧
      value.toDynamic.equal (Dynamic.ofNumber number) = false := by
  obtain ⟨_, number_eq⟩ | ⟨_, number_eq⟩ | ⟨_, number_eq⟩ := Dynamic.exists_ofNumber_eq number
  all_goals
    rw [number_eq]
    cases value with
    | number value => exact absurd rfl (notNumber value)
    | _ => exact ⟨rfl, rfl⟩

/-- The dynamic values that two structured values stand for are equal exactly where these are. -/
theorem equal_toDynamic (value other : Structured) :
    value.toDynamic.equal other.toDynamic = value.equal other := by
  induction value generalizing other with
  | null | bool value | string value =>
    cases other with
    | number other => exact (equal_ofNumber_of_ne (by simp) other).2
    | _ => rfl
  | number number =>
    cases other with
    | number other => exact equal_ofNumber number other
    | _ => exact (equal_ofNumber_of_ne (by simp) number).1
  | list items ih =>
    cases other with
    | number other => exact (equal_ofNumber_of_ne (by simp) other).2
    | list others =>
      rw [toDynamic_list, toDynamic_list, Dynamic.equal, equal]
      induction items generalizing others with
      | nil => cases others <;> rfl
      | cons item items items_ih =>
        cases others with
        | nil => rfl
        | cons other others =>
          rw [List.map_cons, List.map_cons, Dynamic.equalItems, equalItems,
            ih item List.mem_cons_self,
            items_ih fun other other_mem => ih other (List.mem_cons_of_mem _ other_mem)]
    | _ => rfl
  | object fields ih =>
    cases other with
    | number other => exact (equal_ofNumber_of_ne (by simp) other).2
    | object others =>
      rw [toDynamic_object, toDynamic_object, Dynamic.equal, equal]
      induction fields generalizing others with
      | nil => cases others <;> rfl
      | cons field fields fields_ih =>
        obtain ⟨name, value⟩ := field
        cases others with
        | nil => rfl
        | cons other others =>
          obtain ⟨otherName, otherValue⟩ := other
          rw [List.map_cons, List.map_cons, Prod.map_apply, Prod.map_apply, Dynamic.equalEntries,
            equalFields, ih (name, value) List.mem_cons_self,
            fields_ih fun other other_mem => ih other (List.mem_cons_of_mem _ other_mem)]
          rfl
    | _ => rfl

end Structured
end PolicyReview
