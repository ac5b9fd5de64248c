import PolicyReview.Json.Number
import PolicyReview.Json.Text
import PolicyReview.Text.Quoted

/-!
# Scalars

A scalar is a value without parts: null, a boolean, a number or a string.
-/

namespace PolicyReview
namespace Json

/-- A value without parts. -/
inductive Scalar where
  | null
  | bool (value : Bool)
  | number (value : Number)
  | string (value : String)
  deriving DecidableEq

/-- Blanks that may stand between tokens. -/
def isSpace (c : Char) : Bool :=
  c == ' ' || c == '\n' || c == '\t' || c == '\r'

/-- Drop leading blanks. -/
def skipSpace (text : List Char) : List Char :=
  text.dropWhile isSpace

/-- What follows the remaining letters of a literal name. -/
def expectLetters : List Char → List Char → Except Error (List Char)
  | [], text => .ok text
  | _ :: _, [] => .error (.endOfText .value)
  | letter :: letters, c :: text =>
    if c = letter then expectLetters letters text else .error .expectedIdent

namespace Scalar

/-- Read a scalar from the front of a text. -/
def read : List Char → Except Error (Scalar × List Char)
  | [] => .error (.endOfText .value)
  | c :: text =>
    if c = 'n' then do
      let rest ← expectLetters ['u', 'l', 'l'] text
      .ok (.null, rest)
    else if c = 't' then do
      let rest ← expectLetters ['r', 'u', 'e'] text
      .ok (.bool true, rest)
    else if c = 'f' then do
      let rest ← expectLetters ['a', 'l', 's', 'e'] text
      .ok (.bool false, rest)
    else if c = '"' then do
      let (value, rest) ← readString text
      .ok (.string value, rest)
    else if c = '-' ∨ c.isDigit then do
      let (value, rest) ← Number.read (c :: text)
      .ok (.number value, rest)
    else .error .expectedValue

/-- Write a scalar in front of a text. -/
def write (s : Scalar) (rest : List Char) : List Char :=
  match s with
  | .null => 'n' :: 'u' :: 'l' :: 'l' :: rest
  | .bool true => 't' :: 'r' :: 'u' :: 'e' :: rest
  | .bool false => 'f' :: 'a' :: 'l' :: 's' :: 'e' :: rest
  | .number value => value.text ++ rest
  | .string value => writeString value.toList rest

/-- The wording of a scalar that was found in the wrong place. -/
def describe : Scalar → String
  | .null => "null"
  | .bool true => "boolean `true`"
  | .bool false => "boolean `false`"
  | .number value => value.describe
  | .string value => "string " ++ Text.quoted value

end Scalar
end Json
end PolicyReview
