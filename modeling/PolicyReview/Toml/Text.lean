import PolicyReview.Text.Hex

/-!
# TOML text

Blanks are spaces and tabs, and lines end in a line feed or in a carriage return with a line feed.
Strings stand between quotes of four kinds: double quotes admit escapes, single quotes do not, and
three quotes in a row admit several lines.
-/

namespace PolicyReview
namespace Toml

/-- A blank inside a line. -/
def isSpace (c : Char) : Bool :=
  c == ' ' || c == '\t'

/-- Drop leading blanks. -/
def skipSpace (text : List Char) : List Char :=
  text.dropWhile isSpace

/-- A character that may stand in comments and strings: no control other than the tab. -/
def isPlain (c : Char) : Bool :=
  c == '\t' || (' ' ≤ c && c != '\x7f')

/-- What follows a line end, if the text starts with one. -/
def lineEnd? : List Char → Option (List Char)
  | '\n' :: rest => some rest
  | '\r' :: '\n' :: rest => some rest
  | _ => none

/-- What follows the characters of a comment. -/
def skipComment (text : List Char) : List Char :=
  text.dropWhile isPlain

/-- Drop blanks, line ends and comments.  Each round takes a character, so `fuel` only has to
exceed the length of the text. -/
def skipLines : Nat → List Char → List Char
  | 0, text => text
  | fuel + 1, text =>
    let text := skipSpace text
    match lineEnd? text with
    | some rest => skipLines fuel rest
    | none =>
      match text with
      | '#' :: rest => skipLines fuel (skipComment rest)
      | text => text

/-- Drop all leading blanks, line ends and comments. -/
def skipFiller (text : List Char) : List Char :=
  skipLines (text.length + 1) text

/-- What follows the rest of a line that holds no more than blanks and a comment; the text may end
instead of the line. -/
def finishLine? (text : List Char) : Option (List Char) :=
  let text :=
    match skipSpace text with
    | '#' :: rest => skipComment rest
    | text => text
  match text with
  | [] => some []
  | text => lineEnd? text

/-- The character that a letter stands for after a backslash. -/
def shortEscape? (letter : Char) : Option Char :=
  if letter = '"' then some '"'
  else if letter = '\\' then some '\\'
  else if letter = 'b' then some '\x08'
  else if letter = 't' then some '\t'
  else if letter = 'n' then some '\n'
  else if letter = 'f' then some '\x0c'
  else if letter = 'r' then some '\r'
  else if letter = 'e' then some '\x1b'
  else none

/-- The number of hexadecimal digits that an escape takes. -/
def escapeDigits? (letter : Char) : Option Nat :=
  if letter = 'x' then some 2
  else if letter = 'u' then some 4
  else if letter = 'U' then some 8
  else none

/-- The character spelled by hexadecimal digits. -/
def charOfDigits? (width : Nat) (text : List Char) : Option Char :=
  let digits := text.take width
  if digits.length = width then do
    let code ← Text.hexNumber? digits
    if code.isValidChar then some (Char.ofNat code) else none
  else none

/-- The escape whose backslash was read: its character and its width without the backslash. -/
def readEscape? : List Char → Option (Char × Nat)
  | [] => none
  | letter :: text =>
    match shortEscape? letter with
    | some c => some (c, 1)
    | none => do
      let width ← escapeDigits? letter
      let c ← charOfDigits? width text
      some (c, width + 1)

/-- Put a character in front of what was read. -/
def push (c : Char) (read : Option (List Char × List Char)) : Option (List Char × List Char) :=
  read.map fun (content, rest) => (c :: content, rest)

/-- The content of a string in double quotes on one line, with what follows it. -/
def readBasic (skipped : Nat) : List Char → Option (List Char × List Char)
  | [] => none
  | c :: text =>
    match skipped with
    | more + 1 => readBasic more text
    | 0 =>
      if c = '"' then some ([], text)
      else if c = '\\' then
        match readEscape? text with
        | some (decoded, width) => push decoded (readBasic width text)
        | none => none
      else if isPlain c then push c (readBasic 0 text)
      else none

/-- The content of a string in single quotes on one line, with what follows it. -/
def readLiteral : List Char → Option (List Char × List Char)
  | [] => none
  | c :: text =>
    if c = '\'' then some ([], text)
    else if isPlain c then push c (readLiteral text)
    else none

/-- The quotes at the front of a text when they close a string of several lines: up to two of them
still belong to the string.  The answer is how many do. -/
def closingQuotes? (quote : Char) (text : List Char) : Option Nat :=
  let count := (text.takeWhile (· == quote)).length
  if 3 ≤ count then some (min (count - 3) 2) else none

/-- Drop leading blanks and line ends. -/
def dropBlankLines : List Char → List Char
  | [] => []
  | '\r' :: '\n' :: rest => dropBlankLines rest
  | c :: rest => if isSpace c || c == '\n' then dropBlankLines rest else c :: rest

/-- The number of characters between a backslash and the next character of the string, when the
rest of the line is blank: all blanks and line ends that follow are left out. -/
def lineContinuation? (text : List Char) : Option Nat :=
  match lineEnd? (skipSpace text) with
  | some rest => some (text.length - (dropBlankLines rest).length)
  | none => none

/-- The content of a string in three double quotes, with what follows it. -/
def readMultiBasic (skipped : Nat) : List Char → Option (List Char × List Char)
  | [] => none
  | c :: text =>
    match skipped with
    | more + 1 => readMultiBasic more text
    | 0 =>
      if c = '"' then
        match closingQuotes? '"' (c :: text) with
        | some own => some (List.replicate own '"', text.drop (own + 2))
        | none => push c (readMultiBasic 0 text)
      else if c = '\\' then
        match lineContinuation? text with
        | some width => readMultiBasic width text
        | none =>
          match readEscape? text with
          | some (decoded, width) => push decoded (readMultiBasic width text)
          | none => none
      else if isPlain c || (lineEnd? (c :: text)).isSome then push c (readMultiBasic 0 text)
      else none

/-- The content of a string in three single quotes, with what follows it. -/
def readMultiLiteral : List Char → Option (List Char × List Char)
  | [] => none
  | c :: text =>
    if c = '\'' then
      match closingQuotes? '\'' (c :: text) with
      | some own => some (List.replicate own '\'', text.drop (own + 2))
      | none => push c (readMultiLiteral text)
    else if isPlain c || (lineEnd? (c :: text)).isSome then push c (readMultiLiteral text)
    else none

/-- Drop a line end directly after the opening quotes. -/
def dropFirstLineEnd (text : List Char) : List Char :=
  (lineEnd? text).getD text

/-- A string on one line, from its opening quote on. -/
def readLineString? : List Char → Option (String × List Char)
  | '"' :: text => (readBasic 0 text).map fun (content, rest) => (String.ofList content, rest)
  | '\'' :: text => (readLiteral text).map fun (content, rest) => (String.ofList content, rest)
  | _ => none

/-- A string of any kind, from its opening quotes on. -/
def readString? : List Char → Option (String × List Char)
  | '"' :: '"' :: '"' :: text =>
    (readMultiBasic 0 (dropFirstLineEnd text)).map fun (content, rest) =>
      (String.ofList content, rest)
  | '\'' :: '\'' :: '\'' :: text =>
    (readMultiLiteral (dropFirstLineEnd text)).map fun (content, rest) =>
      (String.ofList content, rest)
  | text => readLineString? text

end Toml
end PolicyReview
