import PolicyReview.Decimal.Layout
import PolicyReview.Json.Numeral

/-!
# Numbers

A number is an integer that fits sixty-four bits, with or without sign, or a finite binary64 word.
The three classes do not overlap: an integer is never a word, and zero is a non-negative integer.
-/

namespace PolicyReview
namespace Json

/-- A number of a JSON text. -/
inductive Number where
  /-- An integer that is not negative. -/
  | natural (value : UInt64)
  /-- A negative integer. -/
  | negative (value : Int64) (isNegative : value < 0)
  /-- A finite word. -/
  | float (value : Binary64) (isFinite : value.isFinite = true)
  deriving DecidableEq

namespace Number

/-- The number with the given integer value, when it fits. -/
def ofInt? (value : Int) : Option Number :=
  if 0 ≤ value then
    if value < 0x10000000000000000 then some (.natural (UInt64.ofNat value.toNat)) else none
  else if -0x8000000000000000 ≤ value then
    let word := Int64.ofInt value
    if isNegative : word < 0 then some (.negative word isNegative) else none
  else none

/-- The word nearest to a numeral, unless it would be infinite. -/
def floatOfNumeral? (n : Numeral) : Option Number :=
  match read : Binary64.ofDecimal? n.negative n.clippedDecimal with
  | some word => some (.float word (Binary64.isFinite_of_ofDecimal? read))
  | none => none

/-- The number that a numeral spells.  A numeral without point and exponent is an integer where it
fits and is not a negative zero; every other numeral is a word, and one that would be infinite is
no number. -/
def ofNumeral? (n : Numeral) : Option Number :=
  if n.isInteger then
    if n.negative then
      if n.wholeValue = 0 then floatOfNumeral? n
      else (ofInt? (-n.wholeValue)).or (floatOfNumeral? n)
    else (ofInt? n.wholeValue).or (floatOfNumeral? n)
  else floatOfNumeral? n

/-- Read a number from the front of a text. -/
def read (text : List Char) : Except Error (Number × List Char) := do
  let (numeral, rest) ← Numeral.read text
  match ofNumeral? numeral with
  | some number => .ok (number, rest)
  | none => .error .numberOutOfRange

/-- The text of a number. -/
def text : Number → List Char
  | .natural value => Nat.toDigits 10 value.toNat
  | .negative value _ => '-' :: Nat.toDigits 10 value.toInt.natAbs
  | .float value _ => value.finiteText .json

/-- Equality of numbers: classes differ, and words compare numerically. -/
def equal : Number → Number → Bool
  | .natural x, .natural y => x == y
  | .negative x _, .negative y _ => x == y
  | .float x _, .float y _ => x.equal y
  | _, _ => false

/-- The wording of a number that was found in the wrong place. -/
def describe (n : Number) : String :=
  match n with
  | .float _ _ => "floating point `" ++ String.ofList n.text ++ "`"
  | _ => "integer `" ++ String.ofList n.text ++ "`"

end Number
end Json
end PolicyReview
