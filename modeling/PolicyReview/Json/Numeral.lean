import PolicyReview.Json.Error
import PolicyReview.Decimal.Binary64

/-!
# Numerals

A numeral is a number as it is spelled: sign, whole digits, fraction digits and exponent.  The
first whole digit is zero only when it is the only one, and every other run of digits is not empty.
-/

namespace PolicyReview
namespace Json

/-- The parts of a spelled number. -/
structure Numeral where
  negative : Bool
  /-- Digits in front of the point. -/
  whole : List Char
  /-- Digits after the point, if there is one. -/
  fraction : Option (List Char)
  /-- Sign and digits of the exponent, if there is one. -/
  exponent : Option (Bool × List Char)
  deriving DecidableEq

namespace Numeral

/-- The leading digits of a text and what follows them. -/
def spanDigits (text : List Char) : List Char × List Char :=
  text.span Char.isDigit

/-- Digits that must be there: an empty run is an error, told apart by whether the text ended. -/
def digits (text : List Char) : Except Error (List Char × List Char) :=
  match spanDigits text with
  | ([], []) => .error (.endOfText .value)
  | ([], _) => .error .invalidNumber
  | run => .ok run

/-- The whole digits of a numeral; a zero stands alone. -/
def wholeDigits (text : List Char) : Except Error (List Char × List Char) :=
  match digits text with
  | .ok ('0' :: _ :: _, _) => .error .invalidNumber
  | result => result

/-- The point and the digits after it, if there is a point. -/
def fractionPart : List Char → Except Error (Option (List Char) × List Char)
  | '.' :: text => do
    let (run, rest) ← digits text
    .ok (some run, rest)
  | text => .ok (none, text)

/-- The exponent after its letter: a sign may precede its digits. -/
def exponentDigits : List Char → Except Error ((Bool × List Char) × List Char)
  | '-' :: text => do
    let (run, rest) ← digits text
    .ok ((true, run), rest)
  | '+' :: text => do
    let (run, rest) ← digits text
    .ok ((false, run), rest)
  | text => do
    let (run, rest) ← digits text
    .ok ((false, run), rest)

/-- The exponent, if there is one. -/
def exponentPart : List Char → Except Error (Option (Bool × List Char) × List Char)
  | [] => .ok (none, [])
  | letter :: text =>
    if letter = 'e' ∨ letter = 'E' then do
      let (exponent, rest) ← exponentDigits text
      .ok (some exponent, rest)
    else .ok (none, letter :: text)

/-- Read a numeral without its sign. -/
def readUnsigned (negative : Bool) (text : List Char) : Except Error (Numeral × List Char) := do
  let (whole, rest) ← wholeDigits text
  let (fraction, rest) ← fractionPart rest
  let (exponent, rest) ← exponentPart rest
  .ok (⟨negative, whole, fraction, exponent⟩, rest)

/-- Read a numeral from the front of a text. -/
def read : List Char → Except Error (Numeral × List Char)
  | '-' :: text => readUnsigned true text
  | text => readUnsigned false text

/-- The numeral has neither a point nor an exponent. -/
def isInteger (n : Numeral) : Bool :=
  n.fraction.isNone && n.exponent.isNone

/-- The number spelled by the whole digits. -/
def wholeValue (n : Numeral) : Nat :=
  Nat.ofDigitChars 10 n.whole 0

/-- The exponent with its sign; zero when there is none. -/
def exponentValue (n : Numeral) : Int :=
  match n.exponent with
  | none => 0
  | some (true, run) => -(Nat.ofDigitChars 10 run 0 : Int)
  | some (false, run) => Nat.ofDigitChars 10 run 0

/-- The magnitude of the numeral. -/
def decimal (n : Numeral) : Decimal :=
  ⟨n.whole ++ n.fraction.getD [], n.whole.length + n.exponentValue⟩

/-- The number of digits that a word is read from.  A number half-way between two words has fewer,
so that one digit more than these keeps a longer number on its side of the half. -/
def digitLimit : Nat := 768

/-- The decimal that a word is read from: the magnitude without the zeros at the end of the
fraction, clipped to `digitLimit` digits.  It differs from the magnitude by less than words can
tell, except where the digits spell a half-way number and then zeros beyond the limit: that is read
as lying above the half. -/
def clippedDecimal (n : Numeral) : Decimal :=
  let fraction := Decimal.dropTrailingZeros (n.fraction.getD [])
  let decimal : Decimal := ⟨n.whole ++ fraction, n.whole.length + n.exponentValue⟩
  decimal.dropLeadingZeros.clip digitLimit

end Numeral
end Json
end PolicyReview
