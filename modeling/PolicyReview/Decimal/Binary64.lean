import PolicyReview.Decimal.Basic

/-!
# Binary64 words

A binary64 word is its sign and the number spelled by the other sixty-three bits.  Below the code
of infinity that number orders the magnitudes, and neighbouring codes are neighbouring values; this
is why rounding is a function into codes.  No floating-point operation of the machine is involved.
-/

namespace PolicyReview

/-- A binary64 word: the sign bit and the remaining sixty-three bits. -/
structure Binary64 where
  /-- The sign bit is set. -/
  negative : Bool
  /-- The bits below the sign bit. -/
  code : Nat
  code_lt : code < 0x8000000000000000
  deriving DecidableEq

namespace Binary64

/-- The code of infinity; larger codes are not numbers. -/
def infinityCode : Nat := 0x7FF0000000000000

theorem infinityCode_lt : infinityCode < 0x8000000000000000 := by decide

/-- The word with the given sixty-four bits. -/
def ofBits (word : UInt64) : Binary64 :=
  ⟨decide (0x8000000000000000 ≤ word.toNat), word.toNat % 0x8000000000000000,
    Nat.mod_lt _ (by decide)⟩

/-- The sixty-four bits as a number. -/
def bits (x : Binary64) : Nat :=
  (if x.negative then 0x8000000000000000 else 0) + x.code

/-- A signed zero. -/
def zero (negative : Bool) : Binary64 :=
  ⟨negative, 0, by decide⟩

/-- The word is a number other than the infinities. -/
def isFinite (x : Binary64) : Bool :=
  x.code < infinityCode

/-- The word is not a number. -/
def isNaN (x : Binary64) : Bool :=
  infinityCode < x.code

/-- Numerical equality: a word that is not a number differs from every word, and the two zeros are
equal. -/
def equal (x y : Binary64) : Bool :=
  !x.isNaN && !y.isNaN && x.code == y.code && (x.code == 0 || x.negative == y.negative)

/-- The integer that the magnitude is a multiple of a power of two of. -/
def significand (x : Binary64) : Nat :=
  if x.code / 0x10000000000000 = 0 then x.code
  else 0x10000000000000 + x.code % 0x10000000000000

/-- The power of two that the significand is multiplied by. -/
def exponent (x : Binary64) : Int :=
  (max (x.code / 0x10000000000000) 1 : Nat) - 1075

/-- The magnitude of a finite word. -/
def magnitude (x : Binary64) : Fraction :=
  Fraction.scale ⟨x.significand, 1⟩ 2 x.exponent

/-- The code of the word nearest to a positive fraction, ties going to the even code.  The unit of
the result is the last place of a significand of fifty-three bits, and never finer than the last
place of the least word; a significand that rounds up to `2 ^ 53` carries into the next code. -/
def nearestCode (f : Fraction) : Nat :=
  let unit := max (f.floorLog2 - 52) (-1074)
  (unit + 1074).toNat * 0x10000000000000 + (f.scale 2 (-unit)).round .toEven

/-- A point beyond which every trimmed decimal rounds to infinity, and below whose opposite every
one rounds to zero. -/
def pointBound : Int := 400

/-- The word with the given magnitude code, unless it is infinite or no number. -/
def ofCode? (negative : Bool) (code : Nat) : Option Binary64 :=
  if finite : code < infinityCode then
    some ⟨negative, code, Nat.lt_trans finite infinityCode_lt⟩
  else none

/-- The word nearest to a trimmed decimal, or nothing when it rounds to infinity. -/
def ofTrimmed? (negative : Bool) (d : Decimal) : Option Binary64 :=
  if d.digits.isEmpty ∨ d.point < -pointBound then some (zero negative)
  else if pointBound < d.point then none
  else ofCode? negative (nearestCode d.fraction)

/-- The word nearest to a decimal, or nothing when it rounds to infinity. -/
def ofDecimal? (negative : Bool) (d : Decimal) : Option Binary64 :=
  ofTrimmed? negative d.trim

theorem ofCode?_eq_some {negative : Bool} {code : Nat} {x : Binary64}
    (found : ofCode? negative code = some x) :
    x.negative = negative ∧ x.code = code ∧ code < infinityCode := by
  unfold ofCode? at found
  split at found
  · cases found
    exact ⟨rfl, rfl, by assumption⟩
  · cases found

theorem isFinite_and_negative_of_ofDecimal? {negative : Bool} {d : Decimal} {x : Binary64}
    (read : ofDecimal? negative d = some x) : x.isFinite = true ∧ x.negative = negative := by
  unfold ofDecimal? ofTrimmed? at read
  split at read
  · cases read
    exact ⟨rfl, rfl⟩
  · split at read
    · cases read
    · obtain ⟨sign, code_eq, finite⟩ := ofCode?_eq_some read
      exact ⟨by simpa [isFinite, code_eq] using finite, sign⟩

theorem isFinite_of_ofDecimal? {negative : Bool} {d : Decimal} {x : Binary64}
    (read : ofDecimal? negative d = some x) : x.isFinite = true :=
  (isFinite_and_negative_of_ofDecimal? read).1

end Binary64
end PolicyReview
