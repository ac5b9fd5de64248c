import PolicyReview.Json.Record
import PolicyReview.Proofs.Json.Reader

/-!
# Written records read back

An object whose members are the fields of a record, in any order, is read as the record.  The fields
fill the draft one after the other, and the error is at the first bracket beyond the budget of any
field.
-/

namespace PolicyReview
namespace Json

open Document (writeMembers)

variable {σ α β : Type} {overflow more : Option Nat}

theorem readStringValue_write (value : String) (rest : List Char) :
    readStringValue ((Document.string value).write rest) = .ok (value, rest) := by
  rw [Document.string, Document.write, Scalar.write, writeString, readStringValue,
    skipSpace_cons (by decide)]
  exact readString_write value rest

namespace Field

variable {name : String} {set : σ → β → σ} {get : σ → Option β}

theorem at_read {reader : Nat → Reader β} {budget : Nat} {text rest : List Char} {value : β}
    (value_read : reader budget text = withinBudget overflow (value, rest)) (draft : σ) :
    (Field.at name get set reader).read budget draft text =
      withinBudget overflow (set draft value, rest) := by
  cases overflow <;> simp [Field.at, value_read, withinBudget, bind, Except.bind]

theorem string_read {get : σ → Option String} {set : σ → String → σ} (budget : Nat) (draft : σ)
    (value : String) (rest : List Char) :
    (Field.string name get set).read budget draft ((Document.string value).write rest) =
      withinBudget none (set draft value, rest) :=
  at_read (readStringValue_write value rest) draft

end Field

namespace Shape

variable {shape : Shape σ α} {budget : Nat}

theorem readField_colon {key : String} {draft next : σ} {field : Field σ} {text rest : List Char}
    (found : shape.fields.find? (·.name == key) = some field) (unset : field.isSet draft = false)
    (value_read : field.read budget draft text = withinBudget overflow (next, rest)) :
    shape.readField budget draft key (':' :: text) = withinBudget overflow (next, rest) := by
  cases overflow <;>
    simp [readField, found, unset, value_read, withinBudget, bind, Except.bind]

/-- The members of a written object, in front of `rest`, fill a draft field by field; each of them
belongs to a field that the draft does not hold yet. -/
inductive Fills (shape : Shape σ α) (budget : Nat) (rest : List Char) :
    σ → List (String × Document) → Option Nat → σ → Prop where
  | done (draft : σ) : Fills shape budget rest draft [] none draft
  | field {draft next final : σ} {key : String} {value : Document}
    {members : List (String × Document)} {overflow more : Option Nat} (field : Field σ)
    (found : shape.fields.find? (·.name == key) = some field) (unset : field.isSet draft = false)
    (value_read : field.read budget draft (value.write (writeMembers members ('\x7d' :: rest))) =
      withinBudget overflow (next, writeMembers members ('\x7d' :: rest)))
    (behind : Fills shape budget rest next members more final) :
    Fills shape budget rest draft ((key, value) :: members) (overflow.or more) final

/-- A field whose value opens no bracket beyond the budget. -/
theorem Fills.within {rest : List Char} {draft next final : σ} {key : String} {value : Document}
    {members : List (String × Document)} (field : Field σ)
    (found : shape.fields.find? (·.name == key) = some field) (unset : field.isSet draft = false)
    (value_read : field.read budget draft (value.write (writeMembers members ('\x7d' :: rest))) =
      withinBudget none (next, writeMembers members ('\x7d' :: rest)))
    (behind : shape.Fills budget rest next members more final) :
    shape.Fills budget rest draft ((key, value) :: members) more final := by
  have filled := Fills.field field found unset value_read behind
  rwa [Option.none_or] at filled

/-- The last field. -/
theorem Fills.last {rest : List Char} {draft final : σ} {key : String} {value : Document}
    (field : Field σ) (found : shape.fields.find? (·.name == key) = some field)
    (unset : field.isSet draft = false)
    (value_read : field.read budget draft (value.write ('\x7d' :: rest)) =
      withinBudget overflow (final, '\x7d' :: rest)) :
    shape.Fills budget rest draft [(key, value)] overflow final := by
  have filled := Fills.field field found unset value_read (.done final)
  rwa [Option.or_none] at filled

theorem readMembers_of_fills {rest : List Char} {draft final : σ}
    {members : List (String × Document)}
    (fills : shape.Fills budget rest draft members overflow final) (fuel : Nat)
    (enough : members.length < fuel) :
    readMembers (shape.readField budget) fuel false draft (writeMembers members ('\x7d' :: rest)) =
      withinBudget overflow (final, rest) := by
  induction fills generalizing fuel with
  | done draft =>
    obtain ⟨fuel, rfl⟩ := Nat.exists_eq_add_one.mpr enough
    exact readMembers_closed (nextMember_close false rest)
  | field field found unset value_read behind ih =>
    obtain ⟨fuel, rfl⟩ := Nat.exists_eq_add_one.mpr (Nat.zero_lt_of_lt enough)
    exact readMembers_entry (nextMember_comma _) (readString_write _ _)
      (readField_colon found unset value_read) (ih fuel (by simpa using enough))

theorem read_of_readMembers {text rest : List Char} {draft : σ} {value : α}
    (members_read : readMembers (shape.readField budget) (text.length + 1) true shape.blank text =
      withinBudget overflow (draft, rest))
    (finished : shape.finish draft = .ok value) :
    shape.read (budget + 1) ('\x7b' :: text) = withinBudget overflow (value, rest) := by
  cases overflow <;>
    simp [read, skipSpace_cons, isSpace, spend, members_read, finishDraft, finished, withinBudget,
      bind, Except.bind]

/-- An object whose members fill the blank draft is read as the record that the draft finishes
to. -/
theorem read_of_fills {rest : List Char} {final : σ} {members : List (String × Document)}
    {value : α} (fills : shape.Fills budget rest shape.blank members overflow final)
    (finished : shape.finish final = .ok value) :
    shape.read (budget + 1) ((Document.object members).write rest) =
      withinBudget overflow (value, rest) := by
  cases fills with
  | done =>
    apply read_of_readMembers _ finished
    exact readMembers_closed (nextMember_close true rest)
  | @field _ next _ key value members _ _ field found unset value_read behind =>
    have tail := readMembers_of_fills behind
      (Document.writeMember (key, value) (writeMembers members ('\x7d' :: rest))).length
      (by
        have members_le := Document.length_le_writeMembers members ('\x7d' :: rest)
        have member_lt := Document.length_lt_writeMember (key, value)
          (writeMembers members ('\x7d' :: rest))
        omega)
    apply read_of_readMembers _ finished
    exact readMembers_entry (nextMember_first _) (readString_write _ _)
      (readField_colon found unset value_read) tail

/-- The text of an object that fills the blank draft is read as the record. -/
theorem readText_of_fills {final : σ} {members : List (String × Document)} {value : α}
    (fills : shape.Fills 126 [] shape.blank members overflow final)
    (finished : shape.finish final = .ok value) :
    shape.readText (Document.object members).text = withinBudget overflow value := by
  have record_read := read_of_fills fills finished
  rw [readText, readAll, Document.text, String.toList_ofList, nestingLimit, record_read]
  cases overflow <;> simp [withinBudget, skipSpace, bind, Except.bind]

end Shape
end Json
end PolicyReview
