import PolicyReview.Proofs.Json.Document
import PolicyReview.Proofs.Json.Number
import PolicyReview.Proofs.Json.Text

/-!
# Documents read back

The text of a document in front of a text that cannot continue it is read as the value that the
assembly builds from the document, as long as no more brackets are open than the budget allows.
Otherwise the error is at the first bracket beyond the budget.
-/

namespace PolicyReview
namespace Json

/-- The text begins a value: with a character that is neither blank nor a closing bracket. -/
def BeginsValue (text : List Char) : Prop :=
  ∃ c rest, text = c :: rest ∧ isSpace c = false ∧ c ≠ ']'

theorem skipSpace_cons {c : Char} (notSpace : isSpace c = false) (text : List Char) :
    skipSpace (c :: text) = c :: text := by
  simp [skipSpace, notSpace]

theorem isSpace_of_numeral {c : Char} (numeral : c = '-' ∨ c.isDigit = true) :
    isSpace c = false := by
  by_contra space
  simp only [isSpace, Bool.or_eq_true, beq_iff_eq, Bool.not_eq_false] at space
  rcases numeral with rfl | digit
  · revert space
    decide
  · rcases space with ((rfl | rfl) | rfl) | rfl <;> exact absurd digit (by decide)

theorem ne_of_numeral {c : Char} (letter : Char) (numeral : c = '-' ∨ c.isDigit = true)
    (notSign : letter ≠ '-') (notDigit : letter.isDigit = false) : c ≠ letter := by
  rintro rfl
  rcases numeral with sign | digit
  · exact notSign sign
  · rw [notDigit] at digit
    exact Bool.false_ne_true digit

namespace Scalar

/-- A text that begins as a numeral is no other scalar. -/
theorem read_of_numeral {c : Char} (numeral : c = '-' ∨ c.isDigit = true) (text : List Char) :
    read (c :: text) =
      (Number.read (c :: text)).map fun number_read => (.number number_read.1, number_read.2) := by
  have other {letter : Char} := ne_of_numeral letter numeral
  rw [read, if_neg (other (by decide) (by decide)), if_neg (other (by decide) (by decide)),
    if_neg (other (by decide) (by decide)), if_neg (other (by decide) (by decide)),
    if_pos numeral]
  cases Number.read (c :: text) <;> rfl

theorem read_number {text rest : List Char} {value : Number}
    (number_read : Number.read text = .ok (value, rest)) :
    read text = .ok (.number value, rest) := by
  obtain ⟨c, more, rfl, numeral⟩ := Number.begins_of_read number_read
  rw [read_of_numeral numeral, number_read]
  rfl

/-- The text of a scalar is read as the scalar. -/
theorem read_write (value : Scalar) {rest : List Char} (ends : EndsNumeral rest) :
    read (value.write rest) = .ok (value, rest) := by
  cases value with
  | null => rfl
  | bool value => cases value <;> rfl
  | number value => exact read_number (Number.read_text value ends)
  | string value =>
    rw [write, writeString, read, if_neg (by decide), if_neg (by decide), if_neg (by decide),
      if_pos rfl, readString_write]
    rfl

/-- The text of a scalar begins with no bracket. -/
theorem exists_write_eq (value : Scalar) (rest : List Char) :
    ∃ c more, value.write rest = c :: more ∧ isSpace c = false ∧
      c ≠ '[' ∧ c ≠ '\x7b' ∧ c ≠ ']' := by
  cases value with
  | null => exact ⟨_, _, rfl, by decide⟩
  | bool value => cases value <;> exact ⟨_, _, rfl, by decide⟩
  | string value => exact ⟨_, _, rfl, by decide⟩
  | number value =>
    obtain ⟨c, more, text_eq, numeral⟩ := Number.begins_of_read (value.read_text endsNumeral_nil)
    rw [List.append_nil] at text_eq
    have other {letter : Char} := ne_of_numeral letter numeral
    refine ⟨c, more ++ rest, by simp [write, text_eq], isSpace_of_numeral numeral, ?_⟩
    exact ⟨other (by decide) (by decide), other (by decide) (by decide),
      other (by decide) (by decide)⟩

end Scalar

/-- The result of reading a written document: the error at a bracket beyond the budget, with what
follows that bracket, or the value. -/
def withinBudget {β : Type} (overflow : Option Nat) (result : β) : Except Error β :=
  match overflow with
  | some remaining => .error (.tooDeep remaining)
  | none => .ok result

section Steps

variable {α σ : Type} {overflow more : Option Nat}

@[simp]
theorem nextItem_close (first : Bool) (rest : List Char) :
    nextItem first (']' :: rest) = .ok (.closed rest) := by
  simp [nextItem, skipSpace, isSpace]

theorem nextItem_first {text : List Char} (begins : BeginsValue text) :
    nextItem true text = .ok (.entry text) := by
  obtain ⟨c, rest, rfl, notSpace, notClose⟩ := begins
  simp [nextItem, skipSpace_cons notSpace, notClose]

theorem nextItem_comma {text : List Char} (begins : BeginsValue text) :
    nextItem false (',' :: text) = .ok (.entry text) := by
  obtain ⟨c, rest, rfl, notSpace, notClose⟩ := begins
  rw [nextItem, skipSpace_cons (by decide)]
  simp [skipSpace_cons notSpace, notClose]

@[simp]
theorem nextMember_close (first : Bool) (rest : List Char) :
    nextMember first ('\x7d' :: rest) = .ok (.closed rest) := by
  simp [nextMember, skipSpace, isSpace]

@[simp]
theorem nextMember_first (text : List Char) :
    nextMember true ('"' :: text) = .ok (.entry text) := by
  simp [nextMember, skipSpace, isSpace, keyQuote]

@[simp]
theorem nextMember_comma (text : List Char) :
    nextMember false (',' :: '"' :: text) = .ok (.entry text) := by
  simp [nextMember, skipSpace, isSpace, keyQuote]

@[simp]
theorem afterColon_colon (text : List Char) : afterColon (':' :: text) = .ok text := by
  simp [afterColon, skipSpace, isSpace]

theorem readItems_closed {item : Reader α} {fuel : Nat} {first : Bool} {text rest : List Char}
    (next : nextItem first text = .ok (.closed rest)) :
    readItems item (fuel + 1) first text = .ok ([], rest) := by
  simp [readItems, next, bind, Except.bind]

/-- One item and then the others. -/
theorem readItems_entry {item : Reader α} {fuel : Nat} {first : Bool} {value : α}
    {values : List α} {text text' rest' rest : List Char}
    (next : nextItem first text = .ok (.entry text'))
    (head : item text' = withinBudget overflow (value, rest'))
    (tail : readItems item fuel false rest' = withinBudget more (values, rest)) :
    readItems item (fuel + 1) first text =
      withinBudget (overflow.or more) (value :: values, rest) := by
  cases overflow <;> cases more <;>
    simp [readItems, next, head, tail, withinBudget, bind, Except.bind]

theorem readMembers_closed {member : σ → String → Reader σ} {fuel : Nat} {first : Bool}
    {state : σ} {text rest : List Char} (next : nextMember first text = .ok (.closed rest)) :
    readMembers member (fuel + 1) first state text = .ok (state, rest) := by
  simp [readMembers, next, bind, Except.bind]

/-- One member and then the others. -/
theorem readMembers_entry {member : σ → String → Reader σ} {fuel : Nat} {first : Bool}
    {key : String} {state state' final : σ} {text content content' rest' rest : List Char}
    (next : nextMember first text = .ok (.entry content))
    (key_read : readString content = .ok (key, content'))
    (head : member state key content' = withinBudget overflow (state', rest'))
    (tail : readMembers member fuel false state' rest' = withinBudget more (final, rest)) :
    readMembers member (fuel + 1) first state text =
      withinBudget (overflow.or more) (final, rest) := by
  cases overflow <;> cases more <;>
    simp [readMembers, next, key_read, head, tail, withinBudget, bind, Except.bind]

theorem readMember_colon {value : Reader α} {members : List (String × α)} {key : String} {v : α}
    {text rest : List Char} (value_read : value text = withinBudget overflow (v, rest)) :
    readMember value members key (':' :: text) =
      withinBudget overflow ((key, v) :: members, rest) := by
  cases overflow <;>
    simp [readMember, value_read, withinBudget, bind, Except.bind]

end Steps

namespace Document

mutual

/-- What follows the first bracket beyond the budget, that bracket included, in bytes. -/
def overflow? : Nat → Document → List Char → Option Nat
  | _, .scalar _, _ => none
  | 0, .list items, rest => some (byteLength ((list items).write rest))
  | 0, .object members, rest => some (byteLength ((object members).write rest))
  | budget + 1, .list items, rest => itemsOverflow? budget items (']' :: rest)
  | budget + 1, .object members, rest => membersOverflow? budget members ('\x7d' :: rest)

/-- The first bracket beyond the budget in the items of a list. -/
def itemsOverflow? (budget : Nat) : List Document → List Char → Option Nat
  | [], _ => none
  | item :: items, rest =>
    (overflow? budget item (writeItems items rest)).or (itemsOverflow? budget items rest)

/-- The first bracket beyond the budget in the members of an object. -/
def membersOverflow? (budget : Nat) : List (String × Document) → List Char → Option Nat
  | [], _ => none
  | (_, value) :: members, rest =>
    (overflow? budget value (writeMembers members rest)).or (membersOverflow? budget members rest)

end

theorem beginsValue_write (document : Document) (rest : List Char) :
    BeginsValue (document.write rest) := by
  cases document with
  | scalar value =>
    obtain ⟨c, more, text_eq, notSpace, _, _, notClose⟩ := value.exists_write_eq rest
    exact ⟨c, more, text_eq, notSpace, notClose⟩
  | list items => cases items <;> exact ⟨_, _, rfl, by decide⟩
  | object members => cases members <;> exact ⟨_, _, rfl, by decide⟩

theorem write_nil_ne_nil (document : Document) : document.write [] ≠ [] := by
  obtain ⟨c, rest, text_eq, _⟩ := document.beginsValue_write []
  rw [text_eq]
  exact List.cons_ne_nil c rest

theorem length_lt_write (document : Document) (rest : List Char) :
    rest.length < (document.write rest).length := by
  have length_pos := List.length_pos_iff.mpr document.write_nil_ne_nil
  rw [write_append, List.length_append]
  omega

theorem length_le_writeItems (items : List Document) (rest : List Char) :
    items.length + rest.length ≤ (writeItems items rest).length := by
  induction items with
  | nil => simp [writeItems]
  | cons item items ih =>
    have grows := item.length_lt_write (writeItems items rest)
    rw [writeItems, List.length_cons, List.length_cons]
    omega

theorem length_lt_writeMember (member : String × Document) (rest : List Char) :
    rest.length < (writeMember member rest).length := by
  obtain ⟨key, value⟩ := member
  have grows := value.length_lt_write rest
  simp only [writeMember, writeString, List.length_cons, List.length_append]
  omega

theorem length_le_writeMembers (members : List (String × Document)) (rest : List Char) :
    members.length + rest.length ≤ (writeMembers members rest).length := by
  induction members with
  | nil => simp [writeMembers]
  | cons member members ih =>
    have grows := length_lt_writeMember member (writeMembers members rest)
    rw [writeMembers, List.length_cons, List.length_cons]
    omega

theorem endsNumeral_cons {c : Char} (other : c.isDigit = false ∧ c ≠ '.' ∧ c ≠ 'e' ∧ c ≠ 'E')
    (rest : List Char) : EndsNumeral (c :: rest) := by
  intro d head
  cases head
  exact other

theorem endsNumeral_writeItems (items : List Document) {rest : List Char}
    (ends : EndsNumeral rest) : EndsNumeral (writeItems items rest) := by
  cases items with
  | nil => exact ends
  | cons item items => exact endsNumeral_cons (by decide) _

theorem endsNumeral_writeMembers (members : List (String × Document)) {rest : List Char}
    (ends : EndsNumeral rest) : EndsNumeral (writeMembers members rest) := by
  cases members with
  | nil => exact ends
  | cons member members => exact endsNumeral_cons (by decide) _

section Reading

variable {α : Type} {build : Assembly α} {budget : Nat}

/-- The reader gives back a document at every place that a numeral ends at. -/
def ReadsBack (build : Assembly α) (budget : Nat) (document : Document) : Prop :=
  ∀ rest, EndsNumeral rest → readValue build budget (document.write rest) =
    withinBudget (document.overflow? budget rest) (build.ofDocument document, rest)

/-- The items behind the first are read up to the closing bracket. -/
theorem readItems_writeItems {items : List Document}
    (readsBack : ∀ item ∈ items, ReadsBack build budget item) (fuel : Nat)
    (enough : items.length < fuel) (rest : List Char) :
    readItems (readValue build budget) fuel false (writeItems items (']' :: rest)) =
      withinBudget (itemsOverflow? budget items (']' :: rest)) (build.ofItems items, rest) := by
  induction items generalizing fuel with
  | nil =>
    obtain ⟨fuel, rfl⟩ := Nat.exists_eq_add_one.mpr enough
    exact readItems_closed (nextItem_close false rest)
  | cons item items ih =>
    obtain ⟨fuel, rfl⟩ := Nat.exists_eq_add_one.mpr (Nat.zero_lt_of_lt enough)
    have ends : EndsNumeral (writeItems items (']' :: rest)) :=
      endsNumeral_writeItems items (endsNumeral_cons (by decide) rest)
    apply readItems_entry (nextItem_comma (item.beginsValue_write _))
      (readsBack item List.mem_cons_self _ ends)
    exact ih (fun other other_mem => readsBack other (List.mem_cons_of_mem _ other_mem))
      fuel (by simpa using enough)

/-- The members behind the first are read up to the closing bracket. -/
theorem readMembers_writeMembers {members : List (String × Document)}
    (readsBack : ∀ member ∈ members, ReadsBack build budget member.2) (fuel : Nat)
    (enough : members.length < fuel) (before : List (String × α)) (rest : List Char) :
    readMembers (readMember (readValue build budget)) fuel false before
        (writeMembers members ('\x7d' :: rest)) =
      withinBudget (membersOverflow? budget members ('\x7d' :: rest))
        ((build.ofMembers members).reverse ++ before, rest) := by
  induction members generalizing fuel before with
  | nil =>
    obtain ⟨fuel, rfl⟩ := Nat.exists_eq_add_one.mpr enough
    exact readMembers_closed (nextMember_close false rest)
  | cons member members ih =>
    obtain ⟨key, value⟩ := member
    obtain ⟨fuel, rfl⟩ := Nat.exists_eq_add_one.mpr (Nat.zero_lt_of_lt enough)
    have ends : EndsNumeral (writeMembers members ('\x7d' :: rest)) :=
      endsNumeral_writeMembers members (endsNumeral_cons (by decide) rest)
    have tail := ih (fun other other_mem => readsBack other (List.mem_cons_of_mem _ other_mem))
      fuel (by simpa using enough) ((key, build.ofDocument value) :: before)
    rw [Assembly.ofMembers, List.reverse_cons, List.append_assoc]
    exact readMembers_entry (nextMember_comma _) (readString_write key _)
      (readMember_colon (readsBack (key, value) List.mem_cons_self _ ends)) tail

theorem readValueWith_scalar (nested : Option (Reader α)) (value : Scalar) {rest : List Char}
    (ends : EndsNumeral rest) :
    readValueWith build nested (value.write rest) = .ok (build.scalar value, rest) := by
  obtain ⟨c, more, text_eq, notSpace, notList, notObject, _⟩ := value.exists_write_eq rest
  have scalar_read := value.read_write ends
  rw [text_eq] at scalar_read ⊢
  unfold readValueWith
  rw [skipSpace_cons notSpace]
  split
  · rename_i same
    exact absurd (List.cons.inj same).1 notList
  · rename_i same
    exact absurd (List.cons.inj same).1 notObject
  · rw [scalar_read]
    rfl

/-- A list that may be opened is read as its items. -/
theorem readValueWith_list {reader : Reader α} {overflow : Option Nat} {text rest : List Char}
    {values : List α} (items_read : readItems reader (text.length + 1) true text =
      withinBudget overflow (values, rest)) :
    readValueWith build (some reader) ('[' :: text) =
      withinBudget overflow (build.list values, rest) := by
  cases overflow <;>
    simp [readValueWith, skipSpace_cons, isSpace, openBracket, items_read, withinBudget, bind,
      Except.bind]

/-- An object that may be opened is read as its members. -/
theorem readValueWith_object {reader : Reader α} {overflow : Option Nat} {text rest : List Char}
    {members : List (String × α)}
    (members_read : readMembers (readMember reader) (text.length + 1) true [] text =
      withinBudget overflow (members.reverse, rest)) :
    readValueWith build (some reader) ('\x7b' :: text) =
      withinBudget overflow (build.object members, rest) := by
  cases overflow <;>
    simp [readValueWith, skipSpace_cons, isSpace, openBracket, members_read, withinBudget, bind,
      Except.bind]

theorem readsBack_scalar (value : Scalar) : ReadsBack build budget (.scalar value) := by
  intro rest ends
  rw [write, overflow?]
  cases budget <;> exact readValueWith_scalar _ value ends

theorem readsBack_list {items : List Document}
    (readsBack : ∀ item ∈ items, ∀ budget, ReadsBack build budget item) :
    ReadsBack build budget (.list items) := by
  intro rest _
  cases budget with
  | zero =>
    rw [overflow?]
    cases items <;> rfl
  | succ budget =>
    rw [overflow?, Assembly.ofDocument]
    cases items with
    | nil =>
      apply readValueWith_list
      exact readItems_closed (nextItem_close true rest)
    | cons item items =>
      -- The fuel is the length of the text, and each item behind the first takes a character.
      have tail := readItems_writeItems
        (fun other other_mem => readsBack other (List.mem_cons_of_mem _ other_mem) budget)
        (item.write (writeItems items (']' :: rest))).length
        (by
          have items_le := length_le_writeItems items (']' :: rest)
          have item_lt := item.length_lt_write (writeItems items (']' :: rest))
          omega) rest
      apply readValueWith_list
      exact readItems_entry (nextItem_first (item.beginsValue_write _))
        (readsBack item List.mem_cons_self budget _
          (endsNumeral_writeItems items (endsNumeral_cons (by decide) rest))) tail

theorem readsBack_object {members : List (String × Document)}
    (readsBack : ∀ member ∈ members, ∀ budget, ReadsBack build budget member.2) :
    ReadsBack build budget (.object members) := by
  intro rest _
  cases budget with
  | zero =>
    rw [overflow?]
    cases members <;> rfl
  | succ budget =>
    rw [overflow?, Assembly.ofDocument]
    cases members with
    | nil =>
      apply readValueWith_object
      exact readMembers_closed (nextMember_close true rest)
    | cons member members =>
      obtain ⟨key, value⟩ := member
      have tail := readMembers_writeMembers
        (fun other other_mem => readsBack other (List.mem_cons_of_mem _ other_mem) budget)
        (writeMember (key, value) (writeMembers members ('\x7d' :: rest))).length
        (by
          have members_le := length_le_writeMembers members ('\x7d' :: rest)
          have member_lt :=
            length_lt_writeMember (key, value) (writeMembers members ('\x7d' :: rest))
          omega) [(key, build.ofDocument value)] rest
      apply readValueWith_object
      rw [Assembly.ofMembers, List.reverse_cons]
      exact readMembers_entry (nextMember_first _) (readString_write key _)
        (readMember_colon (readsBack (key, value) List.mem_cons_self budget _
          (endsNumeral_writeMembers members (endsNumeral_cons (by decide) rest)))) tail

/-- Every document is read back. -/
theorem readsBack (build : Assembly α) (budget : Nat) (document : Document) :
    ReadsBack build budget document := by
  induction document generalizing budget with
  | scalar value => exact readsBack_scalar value
  | list items ih => exact readsBack_list ih
  | object members ih => exact readsBack_object ih

end Reading

/-- A bracket is beyond the budget exactly when more brackets are open somewhere. -/
theorem overflow?_eq_none_iff (document : Document) (budget : Nat) (rest : List Char) :
    document.overflow? budget rest = none ↔ document.depth ≤ budget := by
  induction document generalizing budget rest with
  | scalar value => simp [overflow?, depth]
  | list items ih =>
    have items_iff (budget : Nat) (rest : List Char) :
        itemsOverflow? budget items rest = none ↔ itemsDepth items ≤ budget := by
      induction items with
      | nil => simp [itemsOverflow?, itemsDepth]
      | cons item items items_ih =>
        have tail := items_ih fun other other_mem => ih other (List.mem_cons_of_mem _ other_mem)
        rw [itemsOverflow?, itemsDepth, Option.or_eq_none_iff, tail, ih item List.mem_cons_self,
          Nat.max_le]
    cases budget with
    | zero => simp [overflow?, depth]
    | succ budget => rw [overflow?, depth, items_iff, Nat.add_le_add_iff_right]
  | object members ih =>
    have members_iff (budget : Nat) (rest : List Char) :
        membersOverflow? budget members rest = none ↔ membersDepth members ≤ budget := by
      induction members with
      | nil => simp [membersOverflow?, membersDepth]
      | cons member members members_ih =>
        obtain ⟨key, value⟩ := member
        have tail := members_ih fun other other_mem => ih other (List.mem_cons_of_mem _ other_mem)
        rw [membersOverflow?, membersDepth, Option.or_eq_none_iff, tail,
          ih (key, value) List.mem_cons_self, Nat.max_le]
    cases budget with
    | zero => simp [overflow?, depth]
    | succ budget => rw [overflow?, depth, members_iff, Nat.add_le_add_iff_right]

theorem withinBudget_of_depth_le {β : Type} {document : Document} {budget : Nat}
    (depth_le : document.depth ≤ budget) (rest : List Char) (result : β) :
    withinBudget (document.overflow? budget rest) result = .ok result := by
  rw [(document.overflow?_eq_none_iff budget rest).mpr depth_le, withinBudget]

theorem exists_withinBudget_eq_tooDeep {β : Type} {document : Document} {budget : Nat}
    (deep : budget < document.depth) (rest : List Char) (result : β) :
    ∃ remaining, withinBudget (document.overflow? budget rest) result =
      .error (.tooDeep remaining) := by
  have not_none := (document.overflow?_eq_none_iff budget rest).not.mpr (Nat.not_le.mpr deep)
  obtain ⟨remaining, overflow_eq⟩ := Option.ne_none_iff_exists'.mp not_none
  exact ⟨remaining, by rw [overflow_eq, withinBudget]⟩

theorem withinBudget_eq_ok_iff {β : Type} {document : Document} {budget : Nat}
    {rest : List Char} {result read : β} :
    withinBudget (document.overflow? budget rest) result = .ok read ↔
      document.depth ≤ budget ∧ read = result := by
  rw [← document.overflow?_eq_none_iff budget rest]
  cases document.overflow? budget rest <;> simp [withinBudget, eq_comm]

/-- In front of what ends a numeral, a document and its end are determined by the text: with a
budget for the deeper of two documents the reader gives back both. -/
theorem write_cancel {document other : Document} {rest behind : List Char}
    (ends : EndsNumeral rest) (behind_ends : EndsNumeral behind)
    (same : document.write rest = other.write behind) : document = other ∧ rest = behind := by
  have document_read := document.readsBack assembly (max document.depth other.depth) rest ends
  have other_read := other.readsBack assembly (max document.depth other.depth) behind behind_ends
  rw [withinBudget_of_depth_le (Nat.le_max_left ..), Assembly.ofDocument_assembly, same]
    at document_read
  rw [withinBudget_of_depth_le (Nat.le_max_right ..), Assembly.ofDocument_assembly] at other_read
  exact Prod.ext_iff.mp (Except.ok.inj (document_read.symm.trans other_read))

/-- Documents of any depth are told apart by their texts. -/
theorem text_injective : Function.Injective text := by
  intro document other same
  exact (write_cancel endsNumeral_nil endsNumeral_nil (String.ofList_injective same)).1

/-- The text of a document is read as the value built from it, or refused at the first bracket
beyond the limit. -/
theorem readText_text {α : Type} (build : Assembly α) (document : Document) :
    readText build document.text =
      withinBudget (document.overflow? nestingLimit []) (build.ofDocument document) := by
  have value_read := readsBack build nestingLimit document [] endsNumeral_nil
  rw [readText, readAll, text, String.toList_ofList, value_read]
  cases document.overflow? nestingLimit [] <;>
    simp [withinBudget, skipSpace, bind, Except.bind]

/-- A document that is not too deep is read back from its text as it was written. -/
theorem ofText_text {document : Document} (depth_le : document.depth ≤ nestingLimit) :
    ofText document.text = .ok document := by
  rw [ofText, readText_text, Assembly.ofDocument_assembly]
  exact withinBudget_of_depth_le depth_le _ _

end Document
end Json
end PolicyReview
