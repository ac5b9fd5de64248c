/-!
# Hexadecimal digits

Digits are written in lower case and read in either case.
-/

namespace PolicyReview
namespace Text

/-- The lower-case digit of a value below sixteen. -/
def hexDigit (value : Nat) : Char :=
  if value < 10 then Char.ofNat (48 + value) else Char.ofNat (87 + value)

/-- The value of a hexadecimal digit of either case. -/
def hexValue? (c : Char) : Option Nat :=
  if '0' ≤ c ∧ c ≤ '9' then some (c.toNat - 48)
  else if 'a' ≤ c ∧ c ≤ 'f' then some (c.toNat - 87)
  else if 'A' ≤ c ∧ c ≤ 'F' then some (c.toNat - 55)
  else none

/-- The number spelled by hexadecimal digits, most significant first. -/
def hexNumber? : List Char → Option Nat :=
  go 0
where
  go (value : Nat) : List Char → Option Nat
    | [] => some value
    | c :: rest =>
      match hexValue? c with
      | some digit => go (16 * value + digit) rest
      | none => none

/-- The `width` lowest hexadecimal digits of a number, most significant first. -/
def hexDigits : Nat → Nat → List Char
  | 0, _ => []
  | width + 1, value => hexDigits width (value / 16) ++ [hexDigit (value % 16)]

/-- The hexadecimal digits of a number without leading zeros. -/
def hexText (value : Nat) : List Char :=
  Nat.toDigits 16 value

end Text
end PolicyReview
