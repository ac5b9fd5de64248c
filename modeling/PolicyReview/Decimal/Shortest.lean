import PolicyReview.Decimal.Binary64

/-!
# Shortest decimals

The shortest decimal of a finite word has the fewest digits that read back as the word, and of
those with that many digits it is the nearest to the word; which of two equally near ones is taken
is left to the caller.  On each grid only the two neighbours of the word need a look: if any point
of the grid reads back, one of them does.
-/

namespace PolicyReview
namespace Binary64

/-- The decimal reads back as the word. -/
def readsBack (x : Binary64) (d : Decimal) : Bool :=
  ofDecimal? x.negative d == some x

/-- The decimal with at most `count` digits that is nearest to the word among those that read
back. -/
def nearestOfLength? (tie : Tie) (x : Binary64) (count : Nat) : Option Decimal :=
  let unit := x.magnitude.decimalPoint - count
  let steps := x.magnitude.scale 10 (-unit)
  let quotient := steps.num / steps.den
  let below := Decimal.ofNat quotient unit
  let above := Decimal.ofNat (quotient + 1) unit
  match x.readsBack below, x.readsBack above with
  | false, false => none
  | true, false => some below
  | false, true => some above
  | true, true => if steps.round tie = quotient then some below else some above

/-- All digits of a finite word. -/
def exactDecimal (x : Binary64) : Decimal :=
  if 0 ≤ x.exponent then Decimal.ofNat (x.significand * Nat.pow 2 x.exponent.toNat) 0
  else Decimal.ofNat (x.significand * Nat.pow 5 (-x.exponent).toNat) x.exponent

/-- The shortest decimal of a finite word; zero has no digits. -/
def decimal (tie : Tie) (x : Binary64) : Decimal :=
  if x.code = 0 then ⟨[], 0⟩
  else ((List.range' 1 17).findSome? (x.nearestOfLength? tie)).getD x.exactDecimal

end Binary64
end PolicyReview
