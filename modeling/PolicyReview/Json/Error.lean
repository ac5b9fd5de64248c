/-!
# Errors of reading JSON text

An error is a cause.  The text may end too early, it may be malformed, or it may be well-formed and
not fit what is read from it.  Only an error about nesting keeps its place, as the number of bytes
from the offending bracket to the end of the text.
-/

namespace PolicyReview
namespace Json

/-- What was being read when the text ended. -/
inductive Place where
  | value
  | list
  | object
  | string
  deriving DecidableEq, Repr

/-- How a well-formed text can fail to fit. -/
inductive Misfit where
  /-- A value of another type was found. -/
  | wrongType (found expected : String)
  /-- A field occurs twice. -/
  | duplicateField (name : String)
  /-- A field without default does not occur. -/
  | missingField (name : String)
  /-- A list in place of a record ends before a field without default. -/
  | shortList (length : Nat) (expected : String)
  /-- What was read is refused for a reason of its own. -/
  | refused (reason : String)
  deriving DecidableEq, Repr

/-- Why a JSON text cannot be read. -/
inductive Error where
  | endOfText (place : Place)
  | expectedValue
  | expectedIdent
  | invalidNumber
  | numberOutOfRange
  | expectedCommaOrBracket
  | expectedCommaOrBrace
  | expectedColon
  | trailingComma
  | keyNotString
  | trailingCharacters
  | controlCharacter
  | invalidEscape
  | loneSurrogate
  | unfinishedPair
  /-- More brackets are open than allowed; `remaining` bytes follow, the bracket included. -/
  | tooDeep (remaining : Nat)
  | misfit (reason : Misfit)
  deriving DecidableEq, Repr

/-- The three kinds of error. -/
inductive Category where
  | endOfText
  | malformed
  | unfit
  deriving DecidableEq, Repr

/-- The kind of an error. -/
def Error.category : Error → Category
  | .endOfText _ => .endOfText
  | .misfit _ => .unfit
  | _ => .malformed

/-- The wording of a place. -/
def Place.message : Place → String
  | .value => "a value"
  | .list => "a list"
  | .object => "an object"
  | .string => "a string"

/-- The wording of a misfit. -/
def Misfit.message : Misfit → String
  | .wrongType found expected => "invalid type: " ++ found ++ ", expected " ++ expected
  | .duplicateField name => "duplicate field `" ++ name ++ "`"
  | .missingField name => "missing field `" ++ name ++ "`"
  | .shortList length expected =>
    "invalid length " ++ toString length ++ ", expected " ++ expected
  | .refused reason => reason

/-- The wording of an error, without its place. -/
def Error.message : Error → String
  | .endOfText place => "EOF while parsing " ++ place.message
  | .expectedValue => "expected value"
  | .expectedIdent => "expected ident"
  | .invalidNumber => "invalid number"
  | .numberOutOfRange => "number out of range"
  | .expectedCommaOrBracket => "expected `,` or `]`"
  | .expectedCommaOrBrace => "expected `,` or `\x7d`"
  | .expectedColon => "expected `:`"
  | .trailingComma => "trailing comma"
  | .keyNotString => "key must be a string"
  | .trailingCharacters => "trailing characters"
  | .controlCharacter => "control character (\\u0000-\\u001F) found while parsing a string"
  | .invalidEscape => "invalid escape"
  | .loneSurrogate => "lone leading surrogate in hex escape"
  | .unfinishedPair => "unexpected end of hex escape"
  | .tooDeep _ => "recursion limit exceeded"
  | .misfit reason => reason.message

/-- The position, counted from one, of the bracket that opens one level too many. -/
def Error.column? (text : String) : Error → Option Nat
  | .tooDeep remaining => some (text.utf8ByteSize - remaining + 1)
  | _ => none

/-- The wording of an error with its place in a text of one line, where the error keeps one. -/
def Error.messageIn (text : String) (error : Error) : String :=
  match error.column? text with
  | some column => error.message ++ " at line 1 column " ++ toString column
  | none => error.message

end Json
end PolicyReview
