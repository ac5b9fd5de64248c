import Mathlib.Data.List.Forall2

/-!
# Computations that may fail

A computation of several parts succeeds only where each part does.
-/

namespace PolicyReview

variable {ε α β : Type}

/-- The parts of a computation that succeeds. -/
theorem exists_of_bind_eq_ok {x : Except ε α} {f : α → Except ε β} {result : β}
    (bind_eq : x >>= f = .ok result) : ∃ value, x = .ok value ∧ f value = .ok result := by
  cases x with
  | error error => cases bind_eq
  | ok value => exact ⟨value, rfl, bind_eq⟩

theorem bind_eq_ok_iff {x : Except ε α} {f : α → Except ε β} {result : β} :
    x >>= f = .ok result ↔ ∃ value, x = .ok value ∧ f value = .ok result := by
  refine ⟨exists_of_bind_eq_ok, ?_⟩
  rintro ⟨value, rfl, applied⟩
  exact applied

theorem exists_of_map_eq_ok {x : Except ε α} {f : α → β} {result : β}
    (map_eq : x.map f = .ok result) : ∃ value, x = .ok value ∧ f value = result := by
  cases x with
  | error error => cases map_eq
  | ok value => exact ⟨value, rfl, Except.ok.inj map_eq⟩

theorem exists_map_eq_ok_iff {x : Except ε α} {f : α → β} :
    (∃ result, x.map f = .ok result) ↔ ∃ value, x = .ok value := by
  cases x with
  | error error => exact iff_of_false nofun nofun
  | ok value => exact iff_of_true ⟨_, rfl⟩ ⟨_, rfl⟩

/-- A computation that only goes on to use its value fails with its own errors. -/
theorem bind_ok_eq_error_iff {x : Except ε α} {f : α → β} {error : ε} :
    (x >>= fun value => .ok (f value)) = .error error ↔ x = .error error := by
  cases x with
  | error first => constructor <;> (rintro ⟨⟩; rfl)
  | ok value => exact iff_of_false nofun nofun

/-- A list is related to another where each of its items is related to something. -/
theorem exists_forall₂ {R : α → β → Prop} {items : List α}
    (each : ∀ item ∈ items, ∃ value, R item value) : ∃ values, List.Forall₂ R items values := by
  induction items with
  | nil => exact ⟨[], .nil⟩
  | cons item items ih =>
    obtain ⟨value, related⟩ := each item List.mem_cons_self
    obtain ⟨values, all_related⟩ := ih fun other other_mem =>
      each other (List.mem_cons_of_mem item other_mem)
    exact ⟨value :: values, .cons related all_related⟩

/-- Either all items have a property or there is a first that has not. -/
theorem forall_or_first (p : α → Prop) (items : List α) :
    (∀ item ∈ items, p item) ∨ ∃ before item after, items = before ++ item :: after ∧
      (∀ earlier ∈ before, p earlier) ∧ ¬ p item := by
  classical
  cases first : items.find? fun item => ¬ p item with
  | none => exact .inl (by simpa using first)
  | some item =>
    rw [List.find?_eq_some_iff_append] at first
    obtain ⟨fails, before, after, items_eq, hold⟩ := first
    exact .inr ⟨before, item, after, items_eq, by simpa using hold, by simpa using fails⟩

/-- A computation for each item of a list succeeds with the results of all of them in order. -/
theorem mapM_eq_ok_iff {f : α → Except ε β} {items : List α} {results : List β} :
    items.mapM f = .ok results ↔
      List.Forall₂ (fun item result => f item = .ok result) items results := by
  induction items generalizing results with
  | nil =>
    rw [List.mapM_nil, List.forall₂_nil_left_iff]
    exact ⟨fun nil_eq => (Except.ok.inj nil_eq).symm, fun results_eq => congrArg _ results_eq.symm⟩
  | cons item items ih =>
    rw [List.mapM_cons, bind_eq_ok_iff, List.forall₂_cons_left_iff]
    constructor
    · rintro ⟨result, result_eq, rest_eq⟩
      obtain ⟨rest, each, all_eq⟩ := exists_of_bind_eq_ok rest_eq
      cases all_eq
      exact ⟨result, rest, result_eq, ih.mp each, rfl⟩
    · rintro ⟨result, rest, result_eq, each, rfl⟩
      exact ⟨result, result_eq, bind_eq_ok_iff.mpr ⟨rest, ih.mpr each, rfl⟩⟩

/-- A computation for each item of a list succeeds exactly where each of them does. -/
theorem exists_mapM_eq_ok_iff {f : α → Except ε β} {items : List α} :
    (∃ results, items.mapM f = .ok results) ↔ ∀ item ∈ items, ∃ result, f item = .ok result := by
  simp only [mapM_eq_ok_iff]
  refine ⟨?_, exists_forall₂⟩
  rintro ⟨results, related⟩
  induction related with
  | nil => exact List.forall_mem_nil _
  | cons head _ ih => exact List.forall_mem_cons.mpr ⟨⟨_, head⟩, ih⟩

/-- A recursion that computes for one item after the other. -/
theorem eq_mapM (f : α → Except ε β) (all : List α → Except ε (List β)) (nil : all [] = .ok [])
    (cons : ∀ item items, all (item :: items) = do
      let result ← f item
      let results ← all items
      .ok (result :: results)) (items : List α) : all items = items.mapM f := by
  induction items with
  | nil => exact nil
  | cons item items ih =>
    rw [cons, ih, List.mapM_cons]
    rfl

/-- What holds of every result that an item can have holds of the results of all items. -/
theorem forall_of_mapM_eq_ok {f : α → Except ε β} {P : β → Prop} {items : List α}
    {results : List β} (each : ∀ item ∈ items, ∀ result, f item = .ok result → P result)
    (all_eq : items.mapM f = .ok results) : ∀ result ∈ results, P result := by
  rw [mapM_eq_ok_iff] at all_eq
  induction all_eq with
  | nil => exact List.forall_mem_nil _
  | cons head _ ih =>
    obtain ⟨first, others⟩ := List.forall_mem_cons.mp each
    exact List.forall_mem_cons.mpr ⟨first _ head, ih others⟩

/-- What holds of each result holds of the results of all computations. -/
theorem exists_mapM_eq_ok {f : α → Except ε β} {R : β → α → Prop} {items : List α}
    (each : ∀ item ∈ items, ∃ result, f item = .ok result ∧ R result item) :
    ∃ results, items.mapM f = .ok results ∧ List.Forall₂ R results items := by
  obtain ⟨results, related⟩ := exists_forall₂ each
  exact ⟨results, mapM_eq_ok_iff.mpr (related.imp fun _ _ holds => holds.1),
    (related.imp fun _ _ holds => holds.2).flip⟩

/-- Where each computation succeeds with a result of some kind, all results are of that kind. -/
theorem exists_mapM_eq_ok_forall {f : α → Except ε β} {P : β → Prop} {items : List α}
    (each : ∀ item ∈ items, ∃ result, f item = .ok result ∧ P result) :
    ∃ results, items.mapM f = .ok results ∧ ∀ result ∈ results, P result := by
  have each_related : ∀ item ∈ items, ∃ result, f item = .ok result ∧
      (P result ∧ f item = .ok result) := by
    intro item item_mem
    obtain ⟨result, result_eq, holds⟩ := each item item_mem
    exact ⟨result, result_eq, holds, result_eq⟩
  obtain ⟨results, results_eq, related⟩ := exists_mapM_eq_ok each_related
  exact ⟨results, results_eq, ((List.forall₂_and_left results items).mp related).1⟩

end PolicyReview
