import PolicyReview.Proofs.Json.Canonical

/-!
# Open brackets in a text

Outside of string literals a bracket is opened or closed, and the brackets that are open at a place
of a text are counted from its front.  A scanner that looks at nothing but brackets and literals
finds the first bracket that is one too many.  In the text of a document that is the bracket at
which the reader stops.
-/

namespace PolicyReview
namespace Json

/-- The character opens a list or an object. -/
def isOpening (c : Char) : Bool :=
  c == '[' || c == '\x7b'

/-- The character closes a list or an object. -/
def isClosing (c : Char) : Bool :=
  c == ']' || c == '\x7d'

/-- The region behind a text that starts in a region. -/
def Region.behind (region : Region) (text : List Char) : Region :=
  text.foldl Region.next region

/-- The number of brackets that are open behind a text that starts in a region: those opened less
those closed, outside of string literals. -/
def openBrackets (region : Region) (text : List Char) : Int :=
  let outside := outsideLiterals region text
  outside.countP isOpening - outside.countP isClosing

/-- With the bracket that is opened behind a front `count` brackets are open for the first time. -/
structure FirstReaches (region : Region) (count : Int) (front : List Char) (bracket : Char) :
    Prop where
  opening : isOpening bracket = true
  outside : region.behind front = .outside
  count_eq : openBrackets region (front ++ [bracket]) = count
  first : ∀ earlier, earlier <+: front → openBrackets region earlier < count

theorem isClosing_of_isOpening {c : Char} (opening : isOpening c = true) : isClosing c = false := by
  simp only [isOpening, Bool.or_eq_true, beq_iff_eq] at opening
  rcases opening with rfl | rfl <;> decide

theorem next_of_bracket {c : Char} (bracket : isOpening c = true ∨ isClosing c = true) :
    Region.outside.next c = .outside := by
  simp only [isOpening, isClosing, Bool.or_eq_true, beq_iff_eq] at bracket
  rcases bracket with (rfl | rfl) | (rfl | rfl) <;> rfl

theorem openBrackets_nil (region : Region) : openBrackets region [] = 0 := by
  cases region <;> rfl

theorem openBrackets_outside (c : Char) (text : List Char) :
    openBrackets .outside (c :: text) = openBrackets (Region.outside.next c) text +
      ((if isOpening c then 1 else 0) - (if isClosing c then 1 else 0)) := by
  simp only [openBrackets, outsideLiterals, List.countP_cons]
  split_ifs <;> omega

/-- A character in front changes the count by what it opens or closes. -/
theorem FirstReaches.cons {region : Region} {c bracket : Char} {front : List Char}
    {count change : Int} (reaches : FirstReaches (region.next c) count front bracket)
    (changes : ∀ text,
      openBrackets region (c :: text) = openBrackets (region.next c) text + change)
    (pos : 0 < count + change) : FirstReaches region (count + change) (c :: front) bracket where
  opening := reaches.opening
  outside := reaches.outside
  count_eq := by rw [List.cons_append, changes, reaches.count_eq]
  first := by
    intro earlier isPrefix
    rcases List.prefix_cons_iff.mp isPrefix with rfl | ⟨shorter, rfl, shorter_prefix⟩
    · rwa [openBrackets_nil]
    · rw [changes]
      exact Int.add_lt_add_right (reaches.first shorter shorter_prefix) change

/-- What follows the first bracket that opens where `room` more brackets may be open, that bracket
included, in bytes. -/
def beyond? : Nat → Region → List Char → Option Nat
  | _, _, [] => none
  | room, .outside, c :: text =>
    if isOpening c then
      if room = 0 then some (byteLength (c :: text)) else beyond? (room - 1) .outside text
    else if isClosing c then beyond? (room + 1) .outside text
    else beyond? room (Region.outside.next c) text
  | room, .literal, c :: text => beyond? room (Region.literal.next c) text
  | room, .escape, _ :: text => beyond? room .literal text

/-- What the scanner finds is the bracket with which one more than the room are open first. -/
theorem exists_of_beyond?_eq_some {room : Nat} {region : Region} {text : List Char}
    {remaining : Nat} (found : beyond? room region text = some remaining) :
    ∃ front bracket back, text = front ++ bracket :: back ∧
      remaining = byteLength (bracket :: back) ∧ FirstReaches region (room + 1) front bracket := by
  induction text generalizing room region with
  | nil => cases region <;> cases found
  | cons c text ih =>
    -- What is found behind the first character is found in the text, with the room changed.
    have behind {inner : Nat} (change : Int)
        (found : beyond? inner (region.next c) text = some remaining)
        (changes : ∀ text,
          openBrackets region (c :: text) = openBrackets (region.next c) text + change)
        (room_eq : (room : Int) = inner + change) :
        ∃ front bracket back, c :: text = front ++ bracket :: back ∧
          remaining = byteLength (bracket :: back) ∧
          FirstReaches region (room + 1) front bracket := by
      obtain ⟨front, bracket, back, rfl, remaining_eq, reaches⟩ := ih found
      refine ⟨c :: front, bracket, back, rfl, remaining_eq, ?_⟩
      rw [room_eq, Int.add_right_comm]
      exact reaches.cons changes (by omega)
    cases region with
    | literal => exact behind 0 found (fun text => (Int.add_zero _).symm) (Int.add_zero _).symm
    | escape => exact behind 0 found (fun text => (Int.add_zero _).symm) (Int.add_zero _).symm
    | outside =>
      rw [beyond?] at found
      have changes := openBrackets_outside c
      split at found
      · rename_i opening
        rw [isClosing_of_isOpening opening, opening] at changes
        split at found
        · rename_i full
          subst full
          cases found
          refine ⟨[], c, text, rfl, rfl, opening, rfl, ?_, ?_⟩
          · rw [List.nil_append, changes, next_of_bracket (.inl opening)]
            rfl
          · intro earlier isPrefix
            rw [List.prefix_nil.mp isPrefix]
            decide
        · rename_i room_ne
          rw [← next_of_bracket (.inl opening)] at found
          exact behind 1 found changes (by omega)
      · rename_i notOpening
        rw [if_neg notOpening] at changes
        split at found
        · rename_i closing
          rw [← next_of_bracket (.inr closing)] at found
          rw [if_pos closing] at changes
          exact behind (0 - 1) found changes (by omega)
        · rename_i notClosing
          rw [if_neg notClosing] at changes
          exact behind 0 found changes (Int.add_zero _).symm

/-- The scanner passes over a character outside of literals that is no bracket. -/
theorem beyond?_plain {c : Char} (notOpening : isOpening c = false)
    (notClosing : isClosing c = false) (notQuote : c ≠ '"') (room : Nat) (text : List Char) :
    beyond? room .outside (c :: text) = beyond? room .outside text := by
  simp [beyond?, notOpening, notClosing, Region.next, notQuote]

theorem beyond?_opening {c : Char} (opening : isOpening c = true) (room : Nat) (text : List Char) :
    beyond? (room + 1) .outside (c :: text) = beyond? room .outside text := by
  simp [beyond?, opening]

theorem beyond?_closing {c : Char} (closing : isClosing c = true) (room : Nat) (text : List Char) :
    beyond? room .outside (c :: text) = beyond? (room + 1) .outside text := by
  have notOpening : isOpening c = false := by
    by_contra opening
    rw [isClosing_of_isOpening (by simpa using opening)] at closing
    cases closing
  simp [beyond?, notOpening, closing]

theorem folds_beyond? (room : Nat) : Region.Folds (beyond? room) fun _ found => found where
  literal _ _ := rfl
  escape _ _ := rfl

theorem beyond?_writeString (room : Nat) (content rest : List Char) :
    beyond? room .outside (writeString content rest) = beyond? room .outside rest := by
  have opened : beyond? room .outside (writeString content rest) =
      beyond? room .literal (content.flatMap escapeChar ++ '"' :: rest) := rfl
  rw [opened, (folds_beyond? room).content, List.foldr_fixed]

/-- The scanner passes over characters outside of literals that are no brackets. -/
theorem beyond?_append {front : List Char}
    (plain : ∀ c ∈ front, isOpening c = false ∧ isClosing c = false ∧ c ≠ '"') (room : Nat)
    (text : List Char) : beyond? room .outside (front ++ text) = beyond? room .outside text := by
  induction front with
  | nil => rfl
  | cons c front ih =>
    obtain ⟨⟨notOpening, notClosing, notQuote⟩, front_plain⟩ := List.forall_mem_cons.mp plain
    rw [List.cons_append, beyond?_plain notOpening notClosing notQuote, ih front_plain]

theorem notBracket_of_isNumeralChar {c : Char} (numeral : isNumeralChar c = true) :
    isOpening c = false ∧ isClosing c = false := by
  simp only [isOpening, isClosing, Bool.or_eq_false_iff, beq_eq_false_iff_ne]
  refine ⟨⟨?_, ?_⟩, ?_, ?_⟩ <;>
    · rintro rfl
      cases numeral

theorem Scalar.beyond?_write (value : Scalar) (room : Nat) (rest : List Char) :
    beyond? room .outside (value.write rest) = beyond? room .outside rest := by
  cases value with
  | null => rfl
  | bool value => cases value <;> rfl
  | number value =>
    refine beyond?_append (fun c c_mem => ?_) room rest
    have numeral := value.numeric_text c c_mem
    obtain ⟨notOpening, notClosing⟩ := notBracket_of_isNumeralChar numeral
    exact ⟨notOpening, notClosing, (visible_of_isNumeralChar numeral).2.1⟩
  | string value => exact beyond?_writeString room _ rest

namespace Document

/-- Where `room` more brackets may be open, the scanner stops in the text of the document where the
reader does, and otherwise passes over it. -/
def ScannedWithin (document : Document) (room : Nat) : Prop :=
  ∀ rest, beyond? room .outside (document.write rest) =
    (document.overflow? room rest).or (beyond? room .outside rest)

section Parts

variable {room : Nat}

theorem beyond?_writeItems {items : List Document}
    (item_scanned : ∀ item ∈ items, item.ScannedWithin room) (rest : List Char) :
    beyond? room .outside (writeItems items rest) =
      (itemsOverflow? room items rest).or (beyond? room .outside rest) := by
  induction items with
  | nil => rfl
  | cons item items ih =>
    obtain ⟨head_scanned, tail_scanned⟩ := List.forall_mem_cons.mp item_scanned
    rw [writeItems, beyond?_plain (by decide) (by decide) (by decide), head_scanned,
      ih tail_scanned, itemsOverflow?, Option.or_assoc]

theorem beyond?_writeMember {member : String × Document}
    (value_scanned : member.2.ScannedWithin room) (rest : List Char) :
    beyond? room .outside (writeMember member rest) =
      (member.2.overflow? room rest).or (beyond? room .outside rest) := by
  obtain ⟨key, value⟩ := member
  rw [writeMember, beyond?_writeString, beyond?_plain (by decide) (by decide) (by decide),
    value_scanned]

theorem beyond?_writeMembers {members : List (String × Document)}
    (value_scanned : ∀ member ∈ members, member.2.ScannedWithin room) (rest : List Char) :
    beyond? room .outside (writeMembers members rest) =
      (membersOverflow? room members rest).or (beyond? room .outside rest) := by
  induction members with
  | nil => rfl
  | cons member members ih =>
    obtain ⟨head_scanned, tail_scanned⟩ := List.forall_mem_cons.mp value_scanned
    rw [writeMembers, beyond?_plain (by decide) (by decide) (by decide),
      beyond?_writeMember head_scanned, ih tail_scanned, membersOverflow?, Option.or_assoc]

end Parts

theorem scannedWithin (document : Document) (room : Nat) : document.ScannedWithin room := by
  induction document generalizing room with
  | scalar value =>
    intro rest
    rw [write, overflow?, value.beyond?_write, Option.none_or]
  | list items ih =>
    intro rest
    cases room with
    | zero => cases items <;> rfl
    | succ room =>
      have close := beyond?_closing (c := ']') (by decide) room rest
      rw [overflow?, ← close]
      cases items with
      | nil => exact beyond?_opening (by decide) room _
      | cons item items =>
        obtain ⟨head_scanned, tail_scanned⟩ := List.forall_mem_cons.mp fun other other_mem =>
          ih other other_mem room
        rw [write, beyond?_opening (by decide), head_scanned, beyond?_writeItems tail_scanned,
          itemsOverflow?, Option.or_assoc]
  | object members ih =>
    intro rest
    cases room with
    | zero => cases members <;> rfl
    | succ room =>
      have close := beyond?_closing (c := '\x7d') (by decide) room rest
      rw [overflow?, ← close]
      cases members with
      | nil => exact beyond?_opening (by decide) room _
      | cons member members =>
        obtain ⟨head_scanned, tail_scanned⟩ := List.forall_mem_cons.mp fun other other_mem =>
          ih other other_mem room
        rw [write, beyond?_opening (by decide), beyond?_writeMember head_scanned,
          beyond?_writeMembers tail_scanned, membersOverflow?, Option.or_assoc]

/-- The reader stops in the text of a document at the bracket with which one more than the budget
are open first. -/
theorem exists_of_overflow?_eq_some {document : Document} {budget remaining : Nat}
    (overflow : document.overflow? budget [] = some remaining) :
    ∃ front bracket back, document.text.toList = front ++ bracket :: back ∧
      remaining = byteLength (bracket :: back) ∧
      FirstReaches .outside (budget + 1) front bracket := by
  apply exists_of_beyond?_eq_some
  rw [text, String.toList_ofList, document.scannedWithin, overflow, Option.some_or]

/-- The text of a document that is too deep is refused at the first bracket beyond the limit. -/
theorem exists_readText_text_eq_tooDeep {α : Type} (build : Assembly α) {document : Document}
    (deep : nestingLimit < document.depth) :
    ∃ front bracket back, document.text.toList = front ++ bracket :: back ∧
      FirstReaches .outside (nestingLimit + 1) front bracket ∧
      readText build document.text = .error (.tooDeep (byteLength (bracket :: back))) := by
  have not_none := (document.overflow?_eq_none_iff nestingLimit []).not.mpr (Nat.not_le.mpr deep)
  obtain ⟨remaining, overflow⟩ := Option.ne_none_iff_exists'.mp not_none
  obtain ⟨front, bracket, back, text_eq, rfl, reaches⟩ := exists_of_overflow?_eq_some overflow
  exact ⟨front, bracket, back, text_eq, reaches, by rw [readText_text, overflow, withinBudget]⟩

end Document

/-- An error about nesting tells where its bracket stands, in bytes counted from one. -/
theorem Error.messageIn_tooDeep {text : String} {front back : List Char} {bracket : Char}
    (text_eq : text.toList = front ++ bracket :: back) :
    (tooDeep (byteLength (bracket :: back))).messageIn text =
      "recursion limit exceeded at line 1 column " ++
        toString ((String.ofList front).utf8ByteSize + 1) := by
  have size_eq : text.utf8ByteSize = byteLength front + byteLength (bracket :: back) := by
    rw [← String.ofList_toList (s := text), text_eq, utf8ByteSize_ofList, byteLength_append]
  rw [messageIn, column?, size_eq, Nat.add_sub_cancel, utf8ByteSize_ofList]
  rfl

end Json
end PolicyReview
