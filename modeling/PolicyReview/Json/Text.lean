import PolicyReview.Json.Error
import PolicyReview.Text.Hex

/-!
# String literals

Between its quotes a literal holds characters as they are and escapes.  Writing escapes quotes,
backslashes and controls and nothing else; reading knows all escapes, where two `\u` escapes may
spell one character together.
-/

namespace PolicyReview
namespace Json

/-- The letter of the short escape of a character, if it has one. -/
def escapeLetter? (c : Char) : Option Char :=
  if c = '"' then some '"'
  else if c = '\\' then some '\\'
  else if c = '\x08' then some 'b'
  else if c = '\x0c' then some 'f'
  else if c = '\n' then some 'n'
  else if c = '\r' then some 'r'
  else if c = '\t' then some 't'
  else none

/-- A character as it is written inside a literal. -/
def escapeChar (c : Char) : List Char :=
  match escapeLetter? c with
  | some letter => ['\\', letter]
  | none => if c < ' ' then ['\\', 'u', '0', '0'] ++ Text.hexDigits 2 c.toNat else [c]

/-- Write a literal in front of a text. -/
def writeString (content : List Char) (rest : List Char) : List Char :=
  '"' :: (content.flatMap escapeChar ++ '"' :: rest)

/-- The character that a letter stands for after a backslash; `u` is no short escape. -/
def shortEscape? (letter : Char) : Option Char :=
  if letter = '"' then some '"'
  else if letter = '\\' then some '\\'
  else if letter = '/' then some '/'
  else if letter = 'b' then some '\x08'
  else if letter = 'f' then some '\x0c'
  else if letter = 'n' then some '\n'
  else if letter = 'r' then some '\r'
  else if letter = 't' then some '\t'
  else none

/-- The number of bytes that a text takes. -/
def byteLength (text : List Char) : Nat :=
  text.foldl (fun bytes c => bytes + c.utf8Size) 0

/-- The unit spelled by the four hexadecimal digits that follow `\u`.  Four bytes that are no such
digits are an invalid escape; fewer than four bytes are the end of the text. -/
def hexUnit (text : List Char) : Except Error Nat :=
  if byteLength (text.take 4) < 4 then .error (.endOfText .string)
  else
    match Text.hexNumber? (text.take 4) with
    | some unit => .ok unit
    | none => .error .invalidEscape

/-- The unit is the first half of a surrogate pair. -/
def isHighSurrogate (unit : Nat) : Bool :=
  0xD800 ≤ unit && unit < 0xDC00

/-- The unit is the second half of a surrogate pair. -/
def isLowSurrogate (unit : Nat) : Bool :=
  0xDC00 ≤ unit && unit < 0xE000

/-- The code point that a surrogate pair spells. -/
def pairCode (high low : Nat) : Nat :=
  0x10000 + (high - 0xD800) * 0x400 + (low - 0xDC00)

/-- The second half of a pair whose first half was read: the character and the width of the second
escape. -/
def pairEscape (high : Nat) : List Char → Except Error (Char × Nat)
  | [] => .error (.endOfText .string)
  | ['\\'] => .error (.endOfText .string)
  | '\\' :: 'u' :: text => do
    let low ← hexUnit text
    if isLowSurrogate low then .ok (Char.ofNat (pairCode high low), 6)
    else .error .loneSurrogate
  | _ => .error .unfinishedPair

/-- The escape whose backslash was read: its character and its width without the backslash. -/
def readEscape : List Char → Except Error (Char × Nat)
  | [] => .error (.endOfText .string)
  | letter :: text =>
    match shortEscape? letter with
    | some c => .ok (c, 1)
    | none =>
      if letter = 'u' then do
        let unit ← hexUnit text
        if isLowSurrogate unit then .error .loneSurrogate
        else if isHighSurrogate unit then do
          let (c, width) ← pairEscape unit (text.drop 4)
          .ok (c, 5 + width)
        else .ok (Char.ofNat unit, 5)
      else .error .invalidEscape

/-- The content of a literal up to its closing quote, with what follows it.  The first `skipped`
characters belong to an escape that was read already. -/
def readContent (skipped : Nat) : List Char → Except Error (List Char × List Char)
  | [] => .error (.endOfText .string)
  | c :: text =>
    match skipped with
    | more + 1 => readContent more text
    | 0 =>
      if c = '"' then .ok ([], text)
      else if c = '\\' then
        match readEscape text with
        | .error error => .error error
        | .ok (decoded, width) =>
          match readContent width text with
          | .error error => .error error
          | .ok (content, rest) => .ok (decoded :: content, rest)
      else if c < ' ' then .error .controlCharacter
      else
        match readContent 0 text with
        | .error error => .error error
        | .ok (content, rest) => .ok (c :: content, rest)

/-- Read the string whose opening quote was read. -/
def readString (text : List Char) : Except Error (String × List Char) := do
  let (content, rest) ← readContent 0 text
  .ok (String.ofList content, rest)

/-- The width of an escape that nobody decodes: only its form is looked at. -/
def escapeWidth : List Char → Except Error Nat
  | [] => .error (.endOfText .string)
  | letter :: text =>
    if (shortEscape? letter).isSome then .ok 1
    else if letter = 'u' then do
      let _ ← hexUnit text
      .ok 5
    else .error .invalidEscape

/-- What follows a literal that nobody decodes, from its opening quote on. -/
def skipContent (skipped : Nat) : List Char → Except Error (List Char)
  | [] => .error (.endOfText .string)
  | c :: text =>
    match skipped with
    | more + 1 => skipContent more text
    | 0 =>
      if c = '"' then .ok text
      else if c = '\\' then
        match escapeWidth text with
        | .error error => .error error
        | .ok width => skipContent width text
      else if c < ' ' then .error .controlCharacter
      else skipContent 0 text

end Json
end PolicyReview
