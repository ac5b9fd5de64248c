import PolicyReview.Text.Hex
import PolicyReview.Toml.Value

/-!
# TOML numerals

A numeral is told apart by its form: digits behind `0x`, `0o` or `0b` spell an integer in that
base, a point or an exponent makes a float, and all else is a decimal integer.  The form of floats
and of based digits is strict.  Behind an underscore a decimal integer may go on with any
characters as long as its underscores stand between hexadecimal digits; it has no value then.
-/

namespace PolicyReview
namespace Toml

/-- A decimal digit. -/
def isDecimal (c : Char) : Bool :=
  c.isDigit

/-- A digit of the given base up to sixteen. -/
def isDigitOf (base : Nat) (c : Char) : Bool :=
  match Text.hexValue? c with
  | some value => value < base
  | none => false

/-- Every underscore stands between two digits, where `behindDigit` says whether a digit precedes
the text. -/
def underscoresFitBehind (isDigit : Char → Bool) (behindDigit : Bool) : List Char → Bool
  | [] => true
  | ['_'] => false
  | '_' :: c :: text => behindDigit && isDigit c && underscoresFitBehind isDigit true text
  | c :: text => underscoresFitBehind isDigit (isDigit c) text

/-- Every underscore of a numeral stands between two digits. -/
def underscoresFit (isDigit : Char → Bool) (text : List Char) : Bool :=
  underscoresFitBehind isDigit false text

/-- The characters of a numeral other than its underscores. -/
def dropUnderscores (text : List Char) : List Char :=
  text.filter (· != '_')

/-- The value of digits in a base up to sixteen. -/
def digitsValue (base : Nat) (digits : List Char) : Nat :=
  digits.foldl (fun value c => base * value + (Text.hexValue? c).getD 0) 0

/-- A number with the given sign. -/
def withSign (negative : Bool) (value : Nat) : Int :=
  if negative then -value else value

/-- An integer, where it fits sixty-four bits with sign. -/
def integerValue (value : Int) : Value :=
  if -0x8000000000000000 ≤ value ∧ value < 0x8000000000000000 then .integer (Int64.ofInt value)
  else .valueless

/-- The sign of a numeral. -/
inductive Sign where
  /-- No sign is written. -/
  | absent
  | plus
  | minus
  deriving DecidableEq, Repr

/-- A sign is written. -/
def Sign.isWritten (sign : Sign) : Bool :=
  sign != .absent

/-- The sign is a minus. -/
def Sign.isMinus (sign : Sign) : Bool :=
  sign == .minus

/-- The value of digits behind the mark of a base. -/
def basedValue (base : Nat) (digits : List Char) : Value :=
  if digits.isEmpty then .valueless else integerValue (digitsValue base digits)

/-- An integer behind the mark of its base, which admits no sign. -/
def basedInteger? (base : Nat) (sign : Sign) (body : List Char) : Option Value :=
  if !sign.isWritten && body.all (fun c => c == '_' || isDigitOf base c) &&
      underscoresFit (isDigitOf 16) body then
    some (basedValue base (dropUnderscores body))
  else none

/-- The value of the characters of a decimal integer. -/
def decimalValue (sign : Sign) (digits : List Char) : Value :=
  if digits.all isDecimal then integerValue (withSign sign.isMinus (digitsValue 10 digits))
  else .valueless

/-- A zero stands at the front of more characters. -/
def hasLeadingZero : List Char → Bool
  | '0' :: _ :: _ => true
  | _ => false

/-- A decimal integer; a zero in front stands alone. -/
def decimalInteger? (sign : Sign) (body : List Char) : Option Value :=
  if !body.isEmpty && !hasLeadingZero body && !body.contains ' ' &&
      underscoresFit (isDigitOf 16) body then
    some (decimalValue sign (dropUnderscores body))
  else none

/-- The digits at the front of a text, of which there must be one, and what follows them. -/
def someDigits? (text : List Char) : Option (List Char × List Char) :=
  let digits := text.takeWhile isDecimal
  if digits.isEmpty then none else some (digits, text.dropWhile isDecimal)

/-- The fraction of a float, if there is one. -/
def floatFraction? : List Char → Option (List Char × List Char)
  | '.' :: text => someDigits? text
  | text => some ([], text)

/-- A sign at the front of a text. -/
def splitSign : List Char → Sign × List Char
  | '-' :: text => (.minus, text)
  | '+' :: text => (.plus, text)
  | text => (.absent, text)

/-- The exponent that ends a float, if there is one. -/
def floatExponent? : List Char → Option Int
  | [] => some 0
  | letter :: text =>
    if letter = 'e' ∨ letter = 'E' then
      let (sign, text) := splitSign text
      match someDigits? text with
      | some (digits, []) => some (withSign sign.isMinus (digitsValue 10 digits))
      | _ => none
    else none

/-- The float with the given parts, where it is finite. -/
def floatValue (sign : Sign) (whole fraction : List Char) (exponent : Int) : Value :=
  match Binary64.ofDecimal? sign.isMinus ⟨whole ++ fraction, whole.length + exponent⟩ with
  | some value => .float value
  | none => .valueless

/-- A float without its underscores; a zero in front of other whole digits is refused. -/
def plainFloat? (sign : Sign) (text : List Char) : Option Value := do
  let (whole, rest) ← someDigits? text
  let (fraction, rest) ← floatFraction? rest
  let exponent ← floatExponent? rest
  if hasLeadingZero whole then none
  else some (floatValue sign whole fraction exponent)

/-- A float with a fraction, an exponent, or both. -/
def finiteFloat? (sign : Sign) (body : List Char) : Option Value :=
  if underscoresFit isDecimal body then plainFloat? sign (dropUnderscores body) else none

/-- A mark of a float: the point or the letter of the exponent. -/
def isFloatMark (c : Char) : Bool :=
  c == '.' || c == 'e' || c == 'E'

/-- A numeral behind its sign. -/
def numeral? (sign : Sign) : List Char → Option Value
  | '0' :: 'x' :: body => basedInteger? 16 sign body
  | '0' :: 'o' :: body => basedInteger? 8 sign body
  | '0' :: 'b' :: body => basedInteger? 2 sign body
  | body =>
    let rest := body.dropWhile isDecimal
    if rest.any isFloatMark then finiteFloat? sign body
    else if rest.isEmpty || rest.head? == some '_' then decimalInteger? sign body
    else none

/-- A word that is no number. -/
def notANumber : Binary64 :=
  ⟨false, Binary64.infinityCode + 0x8000000000000, by decide⟩

/-- An infinite word. -/
def infinity (negative : Bool) : Binary64 :=
  ⟨negative, Binary64.infinityCode, by decide⟩

/-- A number behind its sign: a name or a numeral. -/
def number? (sign : Sign) (body : List Char) : Option Value :=
  if body = ['i', 'n', 'f'] then some (.float (infinity sign.isMinus))
  else if body = ['n', 'a', 'n'] then some (.float notANumber)
  else numeral? sign body

end Toml
end PolicyReview
