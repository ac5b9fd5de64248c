import PolicyReview.Json.Reader

/-!
# Documents

A document is a JSON text as a tree: its objects list their members in the order of the text, and
keys may repeat.  All numbers of a document are finite, so every document has a text.  Every type
that has a JSON form is written through its document.
-/

namespace PolicyReview
namespace Json

/-- A JSON text as a tree. -/
inductive Document where
  | scalar (value : Scalar)
  | list (items : List Document)
  | object (members : List (String × Document))

namespace Document

instance : Inhabited Document := ⟨.scalar .null⟩

/-- The document of a string. -/
def string (value : String) : Document :=
  .scalar (.string value)

/-- Documents are built from their parts without change. -/
def assembly : Assembly Document :=
  ⟨.scalar, .list, .object⟩

mutual

/-- Write a document without blanks in front of a text. -/
def write : Document → List Char → List Char
  | .scalar value, rest => value.write rest
  | .list [], rest => '[' :: ']' :: rest
  | .list (item :: items), rest => '[' :: item.write (writeItems items (']' :: rest))
  | .object [], rest => '\x7b' :: '\x7d' :: rest
  | .object (member :: members), rest =>
    '\x7b' :: writeMember member (writeMembers members ('\x7d' :: rest))

/-- Write the items after the first, each behind a comma. -/
def writeItems : List Document → List Char → List Char
  | [], rest => rest
  | item :: items, rest => ',' :: item.write (writeItems items rest)

/-- Write a member. -/
def writeMember : String × Document → List Char → List Char
  | (key, value), rest => writeString key.toList (':' :: value.write rest)

/-- Write the members after the first, each behind a comma. -/
def writeMembers : List (String × Document) → List Char → List Char
  | [], rest => rest
  | member :: members, rest => ',' :: writeMember member (writeMembers members rest)

end

/-- The text of a document without blanks. -/
def text (document : Document) : String :=
  String.ofList (document.write [])

/-- Start a line with two blanks for each level, in front of a text. -/
def newLine (level : Nat) (rest : List Char) : List Char :=
  '\n' :: (List.replicate (2 * level) ' ' ++ rest)

mutual

/-- Write a document over several lines in front of a text; the parts of a list or an object that
is not empty stand on lines of their own, one level deeper. -/
def writeLines (level : Nat) : Document → List Char → List Char
  | .scalar value, rest => value.write rest
  | .list [], rest => '[' :: ']' :: rest
  | .list (item :: items), rest =>
    '[' :: newLine (level + 1) (item.writeLines (level + 1)
      (writeItemLines (level + 1) items (newLine level (']' :: rest))))
  | .object [], rest => '\x7b' :: '\x7d' :: rest
  | .object (member :: members), rest =>
    '\x7b' :: newLine (level + 1) (writeMemberLine (level + 1) member
      (writeMemberLines (level + 1) members (newLine level ('\x7d' :: rest))))

/-- Write the items after the first, each on a line of its own behind a comma. -/
def writeItemLines (level : Nat) : List Document → List Char → List Char
  | [], rest => rest
  | item :: items, rest =>
    ',' :: newLine level (item.writeLines level (writeItemLines level items rest))

/-- Write a member; a blank follows the colon. -/
def writeMemberLine (level : Nat) : String × Document → List Char → List Char
  | (key, value), rest => writeString key.toList (':' :: ' ' :: value.writeLines level rest)

/-- Write the members after the first, each on a line of its own behind a comma. -/
def writeMemberLines (level : Nat) : List (String × Document) → List Char → List Char
  | [], rest => rest
  | member :: members, rest =>
    ',' :: newLine level (writeMemberLine level member (writeMemberLines level members rest))

end

/-- The text of a document over several lines. -/
def prettyText (document : Document) : String :=
  String.ofList (document.writeLines 0 [])

mutual

/-- The largest number of brackets that are open at once. -/
def depth : Document → Nat
  | .scalar _ => 0
  | .list items => itemsDepth items + 1
  | .object members => membersDepth members + 1

/-- The largest depth of an item. -/
def itemsDepth : List Document → Nat
  | [] => 0
  | item :: items => max item.depth (itemsDepth items)

/-- The largest depth of a member. -/
def membersDepth : List (String × Document) → Nat
  | [] => 0
  | (_, value) :: members => max value.depth (membersDepth members)

end

/-- Read a text as a document. -/
def ofText (text : String) : Except Error Document :=
  Json.readText assembly text

end Document
end Json
end PolicyReview
