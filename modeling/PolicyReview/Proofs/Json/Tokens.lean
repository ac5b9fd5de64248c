import PolicyReview.Proofs.Json.Escapes
import PolicyReview.Proofs.Json.Literal
import PolicyReview.Proofs.Json.Spelling

/-!
# Documents as tokens

A document is the sequence of its tokens: marks, scalars and, as strings, the names of members.  Its
texts are those that spell the tokens one after the other, with any blanks around each of them:
these texts are read as the document, and no others are.
-/

namespace PolicyReview
namespace Json

/-- The marks between the scalars of a text. -/
inductive Mark where
  | openList
  | closeList
  | openObject
  | closeObject
  | comma
  | colon

def Mark.char : Mark → Char
  | .openList => '['
  | .closeList => ']'
  | .openObject => '\x7b'
  | .closeObject => '\x7d'
  | .comma => ','
  | .colon => ':'

/-- A part of a text that blanks may stand around but not inside of. -/
inductive Token where
  | mark (mark : Mark)
  | scalar (value : Scalar)

/-- The ways to write a token: a number by any literal of it, and a string with each of its
characters written in any way. -/
inductive Token.Spelled : Token → List Char → Prop where
  | mark (mark : Mark) : Spelled (.mark mark) [mark.char]
  | null : Spelled (.scalar .null) ['n', 'u', 'l', 'l']
  | true : Spelled (.scalar (.bool true)) ['t', 'r', 'u', 'e']
  | false : Spelled (.scalar (.bool false)) ['f', 'a', 'l', 's', 'e']
  | number {value : Number} (literal : NumberLiteral) (number_eq : literal.number = .ok value) :
    Spelled (.scalar (.number value)) literal.chars
  | string {value : String} {content : List Char}
    (content_spelled : ContentSpelled value.toList content) :
    Spelled (.scalar (.string value)) ('"' :: (content ++ ['"']))

def Blank (text : List Char) : Prop :=
  ∀ c ∈ text, isSpace c = true

/-- The text spells the tokens one after the other, with any blanks around them. -/
inductive TokensSpelled : List Token → List Char → Prop where
  | nil {blanks : List Char} (blank : Blank blanks) : TokensSpelled [] blanks
  | cons {token : Token} {tokens : List Token} {blanks piece text : List Char}
    (blank : Blank blanks) (head : token.Spelled piece) (tail : TokensSpelled tokens text) :
    TokensSpelled (token :: tokens) (blanks ++ (piece ++ text))

namespace Document

mutual

/-- The tokens of a document in front of others. -/
def tokens : Document → List Token → List Token
  | .scalar value, others => .scalar value :: others
  | .list [], others => .mark .openList :: .mark .closeList :: others
  | .list (item :: items), others =>
    .mark .openList :: item.tokens (itemTokens items (.mark .closeList :: others))
  | .object [], others => .mark .openObject :: .mark .closeObject :: others
  | .object (member :: members), others =>
    .mark .openObject :: memberTokens member (membersTokens members (.mark .closeObject :: others))

/-- The tokens of the items after the first, each behind a comma. -/
def itemTokens : List Document → List Token → List Token
  | [], others => others
  | item :: items, others => .mark .comma :: item.tokens (itemTokens items others)

/-- The tokens of a member. -/
def memberTokens : String × Document → List Token → List Token
  | (key, value), others => .scalar (.string key) :: .mark .colon :: value.tokens others

/-- The tokens of the members after the first, each behind a comma. -/
def membersTokens : List (String × Document) → List Token → List Token
  | [], others => others
  | member :: members, others => .mark .comma :: memberTokens member (membersTokens members others)

end

/-- The text spells the document. -/
def SpelledAs (document : Document) (text : String) : Prop :=
  TokensSpelled (document.tokens []) text.toList

end Document

theorem skipSpace_blanks {blanks : List Char} (blank : Blank blanks) (text : List Char) :
    skipSpace (blanks ++ text) = skipSpace text :=
  List.dropWhile_append_of_pos blank

theorem endsNumeral_of_isSpace {c : Char} (space : isSpace c = true) (text : List Char) :
    EndsNumeral (c :: text) := by
  simp only [isSpace, Bool.or_eq_true, beq_iff_eq] at space
  rintro d ⟨⟩
  rcases space with ((rfl | rfl) | rfl) | rfl <;> decide

theorem Mark.endsNumeral (mark : Mark) (text : List Char) : EndsNumeral (mark.char :: text) := by
  rintro d ⟨⟩
  cases mark <;> decide

theorem Mark.isSpace_char (mark : Mark) : isSpace mark.char = false := by
  cases mark <;> decide

/-- Nothing follows, or a mark does. -/
def EndsScalar (tokens : List Token) : Prop :=
  ∀ token, tokens.head? = some token → ∃ mark, token = .mark mark

theorem endsScalar_nil : EndsScalar [] := by
  intro token head
  cases head

theorem endsScalar_mark (mark : Mark) (tokens : List Token) :
    EndsScalar (.mark mark :: tokens) := by
  rintro token ⟨⟩
  exact ⟨mark, rfl⟩

theorem TokensSpelled.endsNumeral {tokens : List Token} {text : List Char}
    (spelled : TokensSpelled tokens text) (ends : EndsScalar tokens) : EndsNumeral text := by
  cases spelled with
  | nil blank =>
    cases text with
    | nil => exact endsNumeral_nil
    | cons c text => exact endsNumeral_of_isSpace (blank c List.mem_cons_self) text
  | @cons token _ blanks _ _ blank head _ =>
    cases blanks with
    | cons c blanks => exact endsNumeral_of_isSpace (blank c List.mem_cons_self) _
    -- Without a blank in between the next token has to be a mark: two numbers would run together.
    | nil =>
      obtain ⟨mark, rfl⟩ := ends token rfl
      cases head
      exact mark.endsNumeral _

/-- Behind its blanks a mark is met first. -/
theorem TokensSpelled.skipSpace_of_mark {mark : Mark} {tokens : List Token} {text : List Char}
    (spelled : TokensSpelled (.mark mark :: tokens) text) :
    ∃ rest, skipSpace text = mark.char :: rest ∧ TokensSpelled tokens rest := by
  cases spelled with
  | cons blank head tail =>
    cases head
    rw [skipSpace_blanks blank, List.singleton_append, skipSpace_cons mark.isSpace_char]
    exact ⟨_, rfl, tail⟩

/-- Behind its blanks a scalar is read, where what follows ends it. -/
theorem TokensSpelled.read_of_scalar {value : Scalar} {tokens : List Token} {text : List Char}
    (spelled : TokensSpelled (.scalar value :: tokens) text) (ends : EndsScalar tokens) :
    ∃ rest, Scalar.read (skipSpace text) = .ok (value, rest) ∧ TokensSpelled tokens rest := by
  cases spelled with
  | @cons _ _ _ _ rest blank head tail =>
    rw [skipSpace_blanks blank]
    refine ⟨rest, ?_, tail⟩
    cases head with
    | null => rfl
    | true => rfl
    | false => rfl
    | number literal number_eq =>
      obtain ⟨c, more, chars_eq, numeral⟩ := literal.begins
      have number_read := literal.number_read (tail.endsNumeral ends)
      rw [chars_eq, List.cons_append] at number_read ⊢
      rw [skipSpace_cons (isSpace_of_numeral numeral), Scalar.read_of_numeral numeral, number_read,
        number_eq]
      rfl
    | string content_spelled =>
      have string_read := readString_of_contentSpelled content_spelled rest
      rw [List.cons_append, List.append_assoc, List.singleton_append, skipSpace_cons (by decide)]
      simp [Scalar.read, string_read, bind, Except.bind]

/-- Behind its blanks a name is read from its opening quote on. -/
theorem TokensSpelled.readString_of_name {name : String} {tokens : List Token} {text : List Char}
    (spelled : TokensSpelled (.scalar (.string name) :: tokens) text) :
    ∃ content rest, skipSpace text = '"' :: content ∧ readString content = .ok (name, rest) ∧
      TokensSpelled tokens rest := by
  cases spelled with
  | @cons _ _ _ _ rest blank head tail =>
    cases head with
    | string content_spelled =>
      have string_read := readString_of_contentSpelled content_spelled rest
      rw [skipSpace_blanks blank, List.cons_append, List.append_assoc, List.singleton_append,
        skipSpace_cons (by decide)]
      exact ⟨_, rest, rfl, string_read, tail⟩

namespace Document

/-- Where a text spells the tokens of the document and then others, it spells the document in front
of a text that spells the others. -/
def SpelledByTokens (document : Document) : Prop :=
  ∀ ⦃others text⦄, EndsScalar others → TokensSpelled (document.tokens others) text →
    ∃ rest, document.Spelled text rest ∧ TokensSpelled others rest

theorem endsScalar_itemTokens (items : List Document) {others : List Token}
    (ends : EndsScalar others) : EndsScalar (itemTokens items others) := by
  cases items with
  | nil => exact ends
  | cons item items => exact endsScalar_mark _ _

theorem endsScalar_membersTokens (members : List (String × Document)) {others : List Token}
    (ends : EndsScalar others) : EndsScalar (membersTokens members others) := by
  cases members with
  | nil => exact ends
  | cons member members => exact endsScalar_mark _ _

theorem itemsSpelled_of_tokens {items : List Document}
    (each : ∀ item ∈ items, SpelledByTokens item) {others : List Token} {text : List Char}
    (spelled : TokensSpelled (itemTokens items (.mark .closeList :: others)) text) :
    ∃ rest, ItemsSpelled items text rest ∧ TokensSpelled others rest := by
  induction items generalizing text with
  | nil =>
    obtain ⟨rest, closed, others_spelled⟩ := spelled.skipSpace_of_mark
    exact ⟨rest, closed, others_spelled⟩
  | cons item items ih =>
    obtain ⟨inside, comma, item_spelled⟩ := spelled.skipSpace_of_mark
    obtain ⟨behind, item_spelled, items_spelled⟩ := each item List.mem_cons_self
      (endsScalar_itemTokens items (endsScalar_mark _ _)) item_spelled
    obtain ⟨rest, items_spelled, others_spelled⟩ := ih
      (fun other other_mem => each other (List.mem_cons_of_mem _ other_mem)) items_spelled
    exact ⟨rest, ⟨inside, behind, comma, item_spelled, items_spelled⟩, others_spelled⟩

theorem memberSpelled_of_tokens {member : String × Document} (value : SpelledByTokens member.2)
    {others : List Token} (ends : EndsScalar others) {text : List Char}
    (spelled : TokensSpelled (memberTokens member others) text) :
    ∃ rest, MemberSpelled member text rest ∧ TokensSpelled others rest := by
  obtain ⟨key, document⟩ := member
  obtain ⟨content, afterKey, quote, key_read, spelled⟩ := spelled.readString_of_name
  obtain ⟨inside, colon, spelled⟩ := spelled.skipSpace_of_mark
  obtain ⟨rest, value_spelled, others_spelled⟩ := value ends spelled
  exact ⟨rest, ⟨content, afterKey, inside, quote, key_read, afterColon_eq_ok_iff.mpr colon,
    value_spelled⟩, others_spelled⟩

theorem membersSpelled_of_tokens {members : List (String × Document)}
    (each : ∀ member ∈ members, SpelledByTokens member.2) {others : List Token} {text : List Char}
    (spelled : TokensSpelled (membersTokens members (.mark .closeObject :: others)) text) :
    ∃ rest, MembersSpelled members text rest ∧ TokensSpelled others rest := by
  induction members generalizing text with
  | nil =>
    obtain ⟨rest, closed, others_spelled⟩ := spelled.skipSpace_of_mark
    exact ⟨rest, closed, others_spelled⟩
  | cons member members ih =>
    obtain ⟨inside, comma, spelled⟩ := spelled.skipSpace_of_mark
    obtain ⟨behind, member_spelled, spelled⟩ := memberSpelled_of_tokens
      (each member List.mem_cons_self) (endsScalar_membersTokens members (endsScalar_mark _ _))
      spelled
    obtain ⟨rest, members_spelled, others_spelled⟩ := ih
      (fun other other_mem => each other (List.mem_cons_of_mem _ other_mem)) spelled
    exact ⟨rest, ⟨inside, behind, comma, member_spelled, members_spelled⟩, others_spelled⟩

theorem spelledByTokens (document : Document) : SpelledByTokens document := by
  induction document with
  | scalar value => exact fun others text ends spelled => spelled.read_of_scalar ends
  | list items ih =>
    intro others text ends spelled
    cases items with
    | nil =>
      obtain ⟨inside, opened, spelled⟩ := spelled.skipSpace_of_mark
      obtain ⟨rest, closed, others_spelled⟩ := spelled.skipSpace_of_mark
      exact ⟨rest, ⟨inside, opened, closed⟩, others_spelled⟩
    | cons item items =>
      obtain ⟨inside, opened, spelled⟩ := spelled.skipSpace_of_mark
      obtain ⟨behind, item_spelled, spelled⟩ := ih item List.mem_cons_self
        (endsScalar_itemTokens items (endsScalar_mark _ _)) spelled
      obtain ⟨rest, items_spelled, others_spelled⟩ := itemsSpelled_of_tokens
        (fun other other_mem => ih other (List.mem_cons_of_mem _ other_mem)) spelled
      exact ⟨rest, ⟨inside, behind, opened, item_spelled, items_spelled⟩, others_spelled⟩
  | object members ih =>
    intro others text ends spelled
    cases members with
    | nil =>
      obtain ⟨inside, opened, spelled⟩ := spelled.skipSpace_of_mark
      obtain ⟨rest, closed, others_spelled⟩ := spelled.skipSpace_of_mark
      exact ⟨rest, ⟨inside, opened, closed⟩, others_spelled⟩
    | cons member members =>
      obtain ⟨inside, opened, spelled⟩ := spelled.skipSpace_of_mark
      obtain ⟨behind, member_spelled, spelled⟩ := memberSpelled_of_tokens
        (ih member List.mem_cons_self) (endsScalar_membersTokens members (endsScalar_mark _ _))
        spelled
      obtain ⟨rest, members_spelled, others_spelled⟩ := membersSpelled_of_tokens
        (fun other other_mem => ih other (List.mem_cons_of_mem _ other_mem)) spelled
      exact ⟨rest, ⟨inside, behind, opened, member_spelled, members_spelled⟩, others_spelled⟩

/-- A text that spells a document is read as the document, unless it is too deep. -/
theorem ofText_of_spelledAs {document : Document} (depth_le : document.depth ≤ nestingLimit)
    {text : String} (spelled : document.SpelledAs text) : ofText text = .ok document := by
  obtain ⟨rest, spelled, nothing⟩ := document.spelledByTokens endsScalar_nil spelled
  cases nothing with
  | nil blank =>
    apply ofText_of_spelled depth_le spelled
    exact List.dropWhile_eq_nil_iff.mpr blank

end Document

section Inversion

theorem exists_blanks (text : List Char) :
    ∃ blanks, Blank blanks ∧ text = blanks ++ skipSpace text :=
  ⟨text.takeWhile isSpace, fun _ c_mem => List.mem_takeWhile_imp c_mem,
    List.takeWhile_append_dropWhile.symm⟩

/-- Blanks may stand in front of the tokens. -/
theorem TokensSpelled.of_skipSpace {tokens : List Token} {text : List Char}
    (spelled : TokensSpelled tokens (skipSpace text)) : TokensSpelled tokens text := by
  obtain ⟨blanks, blank, text_eq⟩ := exists_blanks text
  rw [text_eq]
  generalize skipSpace text = visible at spelled
  cases spelled with
  | nil more =>
    exact .nil (List.forall_mem_append.mpr ⟨blank, more⟩)
  | cons more head tail =>
    rw [← List.append_assoc]
    exact .cons (List.forall_mem_append.mpr ⟨blank, more⟩) head tail

/-- A token may stand in front of others. -/
theorem TokensSpelled.cons_piece {token : Token} {tokens : List Token} {text piece rest : List Char}
    (head : token.Spelled piece) (text_eq : skipSpace text = piece ++ rest)
    (tail : TokensSpelled tokens rest) : TokensSpelled (token :: tokens) text := by
  apply TokensSpelled.of_skipSpace
  rw [text_eq]
  exact .cons (List.forall_mem_nil _) head tail

theorem eq_append_of_expectLetters {letters text rest : List Char}
    (read : expectLetters letters text = .ok rest) : text = letters ++ rest := by
  induction letters generalizing text with
  | nil => exact Except.ok.inj read
  | cons letter letters ih =>
    cases text with
    | nil => cases read
    | cons c text =>
      rw [expectLetters] at read
      split_ifs at read with same
      rw [same, ih read]
      rfl

/-- What is read as a scalar is written in one of its ways. -/
theorem exists_tokenSpelled_of_read {text rest : List Char} {value : Scalar}
    (read : Scalar.read text = .ok (value, rest)) :
    ∃ piece, Token.Spelled (.scalar value) piece ∧ text = piece ++ rest := by
  cases scalarRead_of_read read with
  | null letters => exact ⟨_, .null, congrArg _ (eq_append_of_expectLetters letters)⟩
  | true letters => exact ⟨_, .true, congrArg _ (eq_append_of_expectLetters letters)⟩
  | false letters => exact ⟨_, .false, congrArg _ (eq_append_of_expectLetters letters)⟩
  | string content =>
    obtain ⟨written, spelled, rfl⟩ := exists_contentSpelled_of_readString content
    exact ⟨_, .string spelled, by simp⟩
  | number _ digits =>
    obtain ⟨literal, number_eq, text_eq⟩ := NumberLiteral.exists_of_read digits
    exact ⟨_, .number literal number_eq, text_eq⟩

namespace Document

/-- Whatever the reader takes from a text spells the tokens of the document in front of the rest. -/
def SpellsTokens (reader : Reader Document) : Prop :=
  ∀ ⦃text document rest⦄, reader text = .ok (document, rest) → ∀ ⦃others⦄,
    TokensSpelled others rest → TokensSpelled (document.tokens others) text

variable {reader : Reader Document} {others : List Token}

theorem tokensSpelled_of_readItems (reads : SpellsTokens reader) (fuel : Nat)
    {text rest : List Char} {items : List Document}
    (read : readItems reader fuel false text = .ok (items, rest))
    (spelled : TokensSpelled others rest) :
    TokensSpelled (itemTokens items (.mark .closeList :: others)) text := by
  induction fuel generalizing text items with
  | zero => cases read
  | succ fuel ih =>
    cases itemsRead_of_readItems read with
    | closed next =>
      exact .cons_piece (.mark .closeList) (skipSpace_of_nextItem_closed next) spelled
    | entry next head tail =>
      obtain ⟨inside, comma, rfl⟩ := exists_comma_of_nextItem next
      exact .cons_piece (.mark .comma) comma (.of_skipSpace (reads head (ih tail)))

theorem tokensSpelled_of_list (reads : SpellsTokens reader) {fuel : Nat}
    {text inside rest : List Char} {items : List Document} (opened : skipSpace text = '[' :: inside)
    (read : readItems reader fuel true inside = .ok (items, rest))
    (spelled : TokensSpelled others rest) :
    TokensSpelled ((list items).tokens others) text := by
  cases itemsRead_of_readItems read with
  | closed next =>
    exact .cons_piece (.mark .openList) opened
      (.cons_piece (.mark .closeList) (skipSpace_of_nextItem_closed next) spelled)
  | @entry fuel _ _ _ _ _ _ next head tail =>
    obtain ⟨rfl, -⟩ := skipSpace_of_nextItem_first next
    exact .cons_piece (.mark .openList) opened
      (.of_skipSpace (reads head (tokensSpelled_of_readItems reads fuel tail spelled)))

/-- A member that is read behind its opening quote spells its tokens. -/
theorem tokensSpelled_of_member (reads : SpellsTokens reader)
    {text content afterKey rest : List Char} {key : String}
    {before result : List (String × Document)} (quote : skipSpace text = '"' :: content)
    (key_read : readString content = .ok (key, afterKey))
    (read : readMember reader before key afterKey = .ok (result, rest)) :
    ∃ value, result = (key, value) :: before ∧ ∀ ⦃others⦄, TokensSpelled others rest →
      TokensSpelled (memberTokens (key, value) others) text := by
  obtain ⟨inside, value, colon, value_read, rfl⟩ := readMember_eq_ok_iff.mp read
  obtain ⟨written, content_spelled, rfl⟩ := exists_contentSpelled_of_readString key_read
  refine ⟨value, rfl, fun others spelled => ?_⟩
  exact .cons_piece (.string content_spelled) (by simp [quote])
    (.cons_piece (.mark .colon) (afterColon_eq_ok_iff.mp colon) (reads value_read spelled))

theorem tokensSpelled_of_readMembers (reads : SpellsTokens reader) (fuel : Nat)
    {text rest : List Char} {before result : List (String × Document)}
    (read : readMembers (readMember reader) fuel false before text = .ok (result, rest))
    (spelled : TokensSpelled others rest) :
    ∃ members, result = members.reverse ++ before ∧
      TokensSpelled (membersTokens members (.mark .closeObject :: others)) text := by
  induction fuel generalizing text before with
  | zero => cases read
  | succ fuel ih =>
    cases membersRead_of_readMembers read with
    | closed next =>
      exact ⟨[], rfl,
        .cons_piece (.mark .closeObject) (skipSpace_of_nextMember_closed next) spelled⟩
    | entry next key_read head tail =>
      obtain ⟨inside, comma, quote⟩ := exists_comma_of_nextMember next
      obtain ⟨value, rfl, member_spelled⟩ := tokensSpelled_of_member reads quote key_read head
      obtain ⟨members, rfl, members_spelled⟩ := ih tail
      exact ⟨_ :: members, by simp,
        .cons_piece (.mark .comma) comma (member_spelled members_spelled)⟩

/-- The members are read in reverse; the first of them has no comma in front. -/
theorem tokensSpelled_of_object (reads : SpellsTokens reader) {fuel : Nat}
    {text inside rest : List Char} {members : List (String × Document)}
    (opened : skipSpace text = '\x7b' :: inside)
    (read : readMembers (readMember reader) fuel true [] inside = .ok (members.reverse, rest))
    (spelled : TokensSpelled others rest) :
    TokensSpelled ((object members).tokens others) text := by
  generalize result_eq : members.reverse = result at read
  cases membersRead_of_readMembers read with
  | closed next =>
    obtain rfl := List.reverse_eq_nil_iff.mp result_eq
    exact .cons_piece (.mark .openObject) opened
      (.cons_piece (.mark .closeObject) (skipSpace_of_nextMember_closed next) spelled)
  | @entry fuel _ _ _ _ _ key _ _ next key_read head tail =>
    obtain ⟨value, rfl, member_spelled⟩ := tokensSpelled_of_member reads
      (skipSpace_of_nextMember_first next) key_read head
    obtain ⟨more, rfl, members_spelled⟩ := tokensSpelled_of_readMembers reads fuel tail spelled
    obtain rfl : members = (key, value) :: more := by
      rw [← List.reverse_inj, result_eq]
      simp
    exact .cons_piece (.mark .openObject) opened (member_spelled members_spelled)

theorem tokensSpelled_of_scalar {text rest : List Char} {value : Scalar}
    (read : Scalar.read (skipSpace text) = .ok (value, rest))
    (spelled : TokensSpelled others rest) : TokensSpelled ((scalar value).tokens others) text := by
  obtain ⟨piece, token_spelled, text_eq⟩ := exists_tokenSpelled_of_read read
  exact .cons_piece token_spelled text_eq spelled

/-- Whatever is read as a value spells the tokens of its document. -/
theorem spellsTokens_readValue (budget : Nat) : SpellsTokens (readValue assembly budget) := by
  induction budget with
  | zero =>
    intro text document rest document_read others spelled
    cases valueRead_of_readValue document_read with
    | scalar _ _ read => exact tokensSpelled_of_scalar read spelled
  | succ budget ih =>
    intro text document rest document_read others spelled
    cases valueRead_of_readValue document_read with
    | scalar _ _ read => exact tokensSpelled_of_scalar read spelled
    | list opened read => exact tokensSpelled_of_list ih opened read spelled
    | object opened read => exact tokensSpelled_of_object ih opened read spelled

theorem inherited_depth : Inherited assembly fun budget document => document.depth ≤ budget where
  scalar _ _ := Nat.zero_le _
  list parts := Nat.succ_le_succ (itemsDepth_le_iff.mpr parts)
  object parts := Nat.succ_le_succ (membersDepth_le_iff.mpr parts)

/-- A text is read as a document exactly when it spells the document and this is not too deep. -/
theorem ofText_eq_ok_iff_spelledAs {text : String} {document : Document} :
    ofText text = .ok document ↔ document.depth ≤ nestingLimit ∧ document.SpelledAs text := by
  refine ⟨fun read => ?_, fun ⟨depth_le, spelled⟩ => ofText_of_spelledAs depth_le spelled⟩
  have depth_le := (readValue_yields inherited_depth nestingLimit).of_readAll read
  refine ⟨depth_le, ?_⟩
  obtain ⟨⟨document, rest⟩, document_read, ends⟩ := exists_of_bind_eq_ok read
  dsimp only at ends
  split at ends
  · rename_i only_blanks
    cases ends
    apply spellsTokens_readValue nestingLimit document_read
    exact .nil (List.dropWhile_eq_nil_iff.mp (List.isEmpty_iff.mp only_blanks))
  · cases ends

/-- The text without blanks is one of the texts of a document. -/
theorem spelledAs_text {document : Document} (depth_le : document.depth ≤ nestingLimit) :
    document.SpelledAs document.text :=
  (ofText_eq_ok_iff_spelledAs.mp (ofText_text depth_le)).2

end Document

end Inversion

end Json
end PolicyReview
