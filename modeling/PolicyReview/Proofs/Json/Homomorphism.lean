import PolicyReview.Json.Reader

/-!
# Readers along homomorphisms

One reader serves every type of value.  A map between two types that respects how their values are
built from parts therefore carries what is read for the one type to what is read for the other, and
a text that cannot be read is refused with the same error.
-/

namespace PolicyReview
namespace Json

variable {α β : Type}

/-- A map that respects how values are built from their parts. -/
structure Assembly.Hom (source : Assembly α) (target : Assembly β) (f : α → β) : Prop where
  scalar (value : Scalar) : f (source.scalar value) = target.scalar value
  list (items : List α) : f (source.list items) = target.list (items.map f)
  object (members : List (String × α)) :
    f (source.object members) = target.object (members.map (Prod.map id f))

theorem Assembly.Hom.comp {γ : Type} {source : Assembly α} {middle : Assembly β}
    {target : Assembly γ} {g : β → γ} {f : α → β} (outer : Hom middle target g)
    (inner : Hom source middle f) : Hom source target fun value => g (f value) where
  scalar value := by rw [inner.scalar, outer.scalar]
  list items := by rw [inner.list, outer.list, List.map_map]; rfl
  object members := by rw [inner.object, outer.object, List.map_map]; rfl

/-- Change the values that a reader gives back. -/
def Reader.map (f : α → β) (reader : Reader α) : Reader β :=
  fun text => (reader text).map (Prod.map f id)

theorem readItems_map (f : α → β) (item : Reader α) (fuel : Nat) (first : Bool) :
    readItems (item.map f) fuel first = (readItems item fuel first).map (List.map f) := by
  induction fuel generalizing first with
  | zero => rfl
  | succ fuel ih =>
    funext text
    rw [readItems, ih, Reader.map, readItems]
    cases nextItem first text with
    | error error => rfl
    | ok next =>
      cases next with
      | closed rest => rfl
      | entry rest =>
        simp only [Reader.map, bind, Except.bind]
        cases item rest with
        | error error => rfl
        | ok read =>
          simp only [Except.map, Prod.map, id]
          cases readItems item fuel false read.2 <;> rfl

theorem readMember_map (f : α → β) (value : Reader α) (members : List (String × α))
    (key : String) :
    readMember (value.map f) (members.map (Prod.map id f)) key =
      (readMember value members key).map (List.map (Prod.map id f)) := by
  funext text
  simp only [readMember, Reader.map, bind, Except.bind]
  cases afterColon text with
  | error error => rfl
  | ok text =>
    dsimp only
    cases value text <;> rfl

theorem readMembers_map (f : α → β) (value : Reader α) (fuel : Nat) (first : Bool)
    (members : List (String × α)) :
    readMembers (readMember (value.map f)) fuel first (members.map (Prod.map id f)) =
      (readMembers (readMember value) fuel first members).map (List.map (Prod.map id f)) := by
  -- The members read so far are mapped too, so the hypothesis is about any such list.
  induction fuel generalizing first members with
  | zero => rfl
  | succ fuel ih =>
    funext text
    rw [readMembers, Reader.map, readMembers]
    cases nextMember first text with
    | error error => rfl
    | ok next =>
      cases next with
      | closed rest => rfl
      | entry rest =>
        simp only [bind, Except.bind]
        cases readString rest with
        | error error => rfl
        | ok key_read =>
          simp only [readMember_map, Reader.map]
          cases readMember value members key_read.1 key_read.2 with
          | error error => rfl
          | ok read =>
            simp only [Except.map, Prod.map, id]
            exact congrFun (ih false read.1) read.2

section Value

variable {source : Assembly α} {target : Assembly β} {f : α → β}

/-- A value is read with mapped parts as the mapped value is read. -/
theorem readValueWith_map (hom : source.Hom target f) (nested : Option (Reader α)) :
    readValueWith target (nested.map (Reader.map f)) = (readValueWith source nested).map f := by
  funext text
  change _ = (readValueWith source nested text).map (Prod.map f id)
  unfold readValueWith
  split
  · rename_i rest _
    cases nested with
    | none => rfl
    | some reader =>
      simp only [Option.map_some, openBracket, readItems_map, bind, Except.bind]
      rw [Reader.map]
      cases readItems reader (rest.length + 1) true rest with
      | error error => rfl
      | ok read => simp [Except.map, hom.list]
  · rename_i rest _
    cases nested with
    | none => rfl
    | some reader =>
      have members_map := readMembers_map f reader (rest.length + 1) true []
      rw [List.map_nil] at members_map
      simp only [Option.map_some, openBracket, members_map, bind, Except.bind]
      rw [Reader.map]
      cases readMembers (readMember reader) (rest.length + 1) true [] rest with
      | error error => rfl
      | ok read => simp [Except.map, hom.object]
  · simp only [bind, Except.bind]
    cases Scalar.read _ with
    | error error => rfl
    | ok read => simp [Except.map, hom.scalar]

theorem readValue_map (hom : source.Hom target f) (budget : Nat) :
    readValue target budget = (readValue source budget).map f := by
  induction budget with
  | zero => exact readValueWith_map hom none
  | succ budget ih =>
    rw [readValue, ih]
    exact readValueWith_map hom (some (readValue source budget))

/-- A whole text is read for the target of a homomorphism as it is read for the source. -/
theorem readText_map (hom : source.Hom target f) (text : String) :
    readText target text = (readText source text).map f := by
  simp only [readText, readAll, readValue_map hom, Reader.map, bind, Except.bind]
  cases readValue source nestingLimit text.toList with
  | error error => rfl
  | ok read =>
    simp only [Except.map, Prod.map, id]
    split <;> rfl

end Value

end Json
end PolicyReview
