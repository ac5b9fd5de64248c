/-!
# Decimals

A decimal is a run of digits with the place of its point: the digits `d₁ d₂ …` and the point `p`
stand for `0.d₁d₂… · 10 ^ p`.  Leading zeros move the point and trailing zeros change nothing, so a
positive number has exactly one trimmed decimal.
-/

namespace PolicyReview

/-- Digits and the place of the point, counted from before the first digit. -/
structure Decimal where
  /-- Decimal digits as characters, most significant first. -/
  digits : List Char
  /-- Number of digits in front of the point; negative when zeros follow the point. -/
  point : Int
  deriving DecidableEq, Repr

namespace Decimal

/-- Drop the zeros at the end of a run of digits. -/
def dropTrailingZeros (digits : List Char) : List Char :=
  (digits.reverse.dropWhile (· == '0')).reverse

/-- Drop the zeros in front, which moves the point. -/
def dropLeadingZeros (d : Decimal) : Decimal :=
  let digits := d.digits.dropWhile (· == '0')
  ⟨digits, d.point - (d.digits.length - digits.length : Nat)⟩

/-- Drop the zeros at both ends. -/
def trim (d : Decimal) : Decimal :=
  ⟨dropTrailingZeros d.dropLeadingZeros.digits, d.dropLeadingZeros.point⟩

/-- Keep at most `limit` digits; a one behind them stands for all that are left out. -/
def clip (limit : Nat) (d : Decimal) : Decimal :=
  if d.digits.length ≤ limit then d else ⟨d.digits.take limit ++ ['1'], d.point⟩

/-- The trimmed decimal of `value · 10 ^ exponent`. -/
def ofNat (value : Nat) (exponent : Int) : Decimal :=
  let digits := Nat.toDigits 10 value
  trim ⟨digits, exponent + digits.length⟩

/-- The number spelled by the digits alone. -/
def coefficient (d : Decimal) : Nat :=
  Nat.ofDigitChars 10 d.digits 0

/-- The power of ten that the coefficient is multiplied by. -/
def exponent (d : Decimal) : Int :=
  d.point - d.digits.length

end Decimal

/-- Where a number half-way between two neighbours goes. -/
inductive Tie where
  /-- To the even neighbour. -/
  | toEven
  /-- To the greater neighbour. -/
  | up
  deriving DecidableEq, Repr

/-- The integer that the half above `below` goes to. -/
def Tie.settle (tie : Tie) (below : Nat) : Nat :=
  match tie with
  | .toEven => below + below % 2
  | .up => below + 1

/-- A non-negative rational as numerator and denominator, not necessarily reduced. -/
structure Fraction where
  num : Nat
  den : Nat
  deriving DecidableEq, Repr

namespace Fraction

/-- The fraction multiplied by a power of `base`, which may be negative. -/
def scale (f : Fraction) (base : Nat) (exponent : Int) : Fraction :=
  if 0 ≤ exponent then ⟨f.num * base.pow exponent.toNat, f.den⟩
  else ⟨f.num, f.den * base.pow (-exponent).toNat⟩

/-- The nearest integer; a half goes as `tie` says. -/
def round (tie : Tie) (f : Fraction) : Nat :=
  let quotient := f.num / f.den
  let rest := 2 * (f.num % f.den)
  if rest < f.den then quotient
  else if f.den < rest then quotient + 1
  else tie.settle quotient

/-- For a positive fraction, the exponent `e` with `2 ^ e ≤ num / den < 2 ^ (e + 1)`. -/
def floorLog2 (f : Fraction) : Int :=
  let guess : Int := (Nat.log2 f.num : Int) - Nat.log2 f.den
  let scaled := f.scale 2 (-guess)
  if scaled.den ≤ scaled.num then guess else guess - 1

/-- For a positive fraction, the point `p` with `10 ^ (p - 1) ≤ num / den < 10 ^ p`. -/
def decimalPoint (f : Fraction) : Int :=
  let guess : Int := ((Nat.toDigits 10 f.num).length : Int) - (Nat.toDigits 10 f.den).length
  let scaled := f.scale 10 (-guess)
  if scaled.den ≤ scaled.num then guess + 1 else guess

end Fraction

/-- The value of a decimal. -/
def Decimal.fraction (d : Decimal) : Fraction :=
  Fraction.scale ⟨d.coefficient, 1⟩ 10 d.exponent

end PolicyReview
