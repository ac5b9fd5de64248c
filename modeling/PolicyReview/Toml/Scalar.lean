import PolicyReview.Toml.Moment
import PolicyReview.Toml.Text

/-!
# TOML scalars

A scalar other than a string is a run of characters up to a separator, a bracket, a comment or the
end of the line; a blank belongs to the run when more of it follows.  Booleans, numbers, dates and
times are told apart by the form of the whole run.
-/

namespace PolicyReview
namespace Toml

/-- A boolean. -/
def boolean? (text : List Char) : Option Value :=
  if text = ['t', 'r', 'u', 'e'] then some (.boolean true)
  else if text = ['f', 'a', 'l', 's', 'e'] then some (.boolean false)
  else none

/-- A number with its sign. -/
def signedNumber? (text : List Char) : Option Value :=
  let (sign, body) := splitSign text
  number? sign body

/-- A scalar other than a string, from the whole of its run. -/
def scalarOfRun? (run : List Char) : Option Value :=
  (boolean? run).or (((moment? run).map .moment).or (signedNumber? run))

/-- A character of a run. -/
def isRunChar (c : Char) : Bool :=
  !(isSpace c || c == '\n' || c == '\r' || c == '#' || c == '=' || c == ',' || c == '[' ||
    c == ']' || c == '\x7b' || c == '\x7d')

/-- A character that a run goes on with behind a blank. -/
def resumesRun (c : Char) : Bool :=
  isRunChar c && c != '.' && c != '"' && c != '\''

/-- More of a run follows, possibly behind blanks. -/
def runFollows (text : List Char) : Bool :=
  (skipSpace text).head?.any resumesRun

/-- The run at the front of a text, and what follows it. -/
def splitRun : List Char → List Char × List Char
  | [] => ([], [])
  | c :: text =>
    if isRunChar c || (isSpace c && runFollows text) then
      let (run, rest) := splitRun text
      (c :: run, rest)
    else ([], c :: text)

/-- A scalar at the front of a text. -/
def readScalar? (text : List Char) : Option (Value × List Char) :=
  match text with
  | '"' :: _ => (readString? text).map fun (value, rest) => (.string value, rest)
  | '\'' :: _ => (readString? text).map fun (value, rest) => (.string value, rest)
  | text =>
    let (run, rest) := splitRun text
    (scalarOfRun? run).map fun value => (value, rest)

end Toml
end PolicyReview
