import PolicyReview.Json.Reader

/-!
# Skipping values

A value that nobody wants is skipped by its form alone.  Numerals need not be in range, halves of
surrogate pairs need no partner, and brackets may nest without limit; a comma must be followed by
another item or key.
-/

namespace PolicyReview
namespace Json

/-- A skipper gives back what follows a value. -/
abbrev Skipper := List Char → Except Error (List Char)

/-- Skip a numeral; whatever is wrong with it, it is an invalid number. -/
def skipNumeral (text : List Char) : Except Error (List Char) :=
  match Numeral.read text with
  | .ok (_, rest) => .ok rest
  | .error _ => .error .invalidNumber

/-- Skip a scalar. -/
def skipScalar : Skipper
  | [] => .error (.endOfText .value)
  | c :: text =>
    if c = 'n' then expectLetters ['u', 'l', 'l'] text
    else if c = 't' then expectLetters ['r', 'u', 'e'] text
    else if c = 'f' then expectLetters ['a', 'l', 's', 'e'] text
    else if c = '"' then skipContent 0 text
    else if c = '-' ∨ c.isDigit then skipNumeral (c :: text)
    else .error .expectedValue

/-- Skip what follows an item of a list, up to its closing bracket. -/
def skipItems (item : Skipper) : Nat → Skipper
  | 0, _ => .error (.endOfText .list)
  | fuel + 1, text =>
    match skipSpace text with
    | [] => .error (.endOfText .list)
    | c :: text =>
      if c = ']' then .ok text
      else if c = ',' then do
        let rest ← item text
        skipItems item fuel rest
      else .error .expectedCommaOrBracket

/-- Skip a list whose opening bracket was read. -/
def skipList (item : Skipper) (fuel : Nat) (text : List Char) : Except Error (List Char) :=
  match skipSpace text with
  | [] => .error (.endOfText .list)
  | ']' :: rest => .ok rest
  | text => do
    let rest ← item text
    skipItems item fuel rest

/-- Skip a member from its key on. -/
def skipMember (value : Skipper) (text : List Char) : Except Error (List Char) := do
  match ← keyQuote (.endOfText .object) (skipSpace text) with
  | .closed rest => .ok rest
  | .entry rest =>
    let rest ← skipContent 0 rest
    let rest ← afterColon rest
    value rest

/-- Skip what follows a member of an object, up to its closing bracket. -/
def skipMembers (value : Skipper) : Nat → Skipper
  | 0, _ => .error (.endOfText .object)
  | fuel + 1, text =>
    match skipSpace text with
    | [] => .error (.endOfText .object)
    | c :: text =>
      if c = '\x7d' then .ok text
      else if c = ',' then do
        let rest ← skipMember value text
        skipMembers value fuel rest
      else .error .expectedCommaOrBrace

/-- Skip an object whose opening bracket was read. -/
def skipObject (value : Skipper) (fuel : Nat) (text : List Char) : Except Error (List Char) :=
  match skipSpace text with
  | [] => .error (.endOfText .object)
  | '\x7d' :: rest => .ok rest
  | text => do
    let rest ← skipMember value text
    skipMembers value fuel rest

/-- Skip one value with at most `levels` brackets open at once. -/
def skipNested : Nat → Skipper
  | 0, _ => .error (.endOfText .value)
  | levels + 1, text =>
    match skipSpace text with
    | '[' :: rest => skipList (skipNested levels) rest.length rest
    | '\x7b' :: rest => skipObject (skipNested levels) rest.length rest
    | text => skipScalar text

/-- Skip one value.  A text has no more open brackets than characters. -/
def skipValue (text : List Char) : Except Error (List Char) :=
  skipNested (text.length + 1) text

end Json
end PolicyReview
