import PolicyReview.Decimal.Shortest

/-!
# Layouts of decimals

A layout says for which places of the point a number is written positionally; elsewhere it is
written with an exponent.  A positional number always shows a point with a digit on both sides.
Where two shortest decimals are equally near to a word, the layout also says which one is shown.
-/

namespace PolicyReview
namespace Decimal

/-- The choice between positional and exponent form, and between equally near decimals. -/
structure Layout where
  /-- The places of the point at which a number is written positionally. -/
  positional : Int → Bool
  /-- Which of two equally near decimals is written. -/
  tie : Tie

/-- The layout of JSON text: positional from `10 ^ (-5)` up to and without `10 ^ 16`, and even in
the last digit where two decimals are equally near. -/
def Layout.json : Layout :=
  ⟨fun point => decide (-5 < point) && decide (point ≤ 16), .toEven⟩

/-- The layout of diagnostics outside JSON text: positional everywhere, and the greater of two
equally near decimals. -/
def Layout.plain : Layout :=
  ⟨fun _ => true, .up⟩

/-- The digits around the point, with zeros filled in up to it. -/
def positionalText (d : Decimal) : List Char :=
  if d.point ≤ 0 then
    '0' :: '.' :: (List.replicate (-d.point).toNat '0' ++ d.digits)
  else
    let whole := d.point.toNat
    if d.digits.length ≤ whole then
      d.digits ++ List.replicate (whole - d.digits.length) '0' ++ ['.', '0']
    else
      d.digits.take whole ++ '.' :: d.digits.drop whole

/-- The exponent with its sign, which is always written. -/
def exponentText (exponent : Int) : List Char :=
  (if exponent < 0 then '-' else '+') :: Nat.toDigits 10 exponent.natAbs

/-- One digit in front of the point and the exponent; a single digit takes no point. -/
def scientificText (d : Decimal) : List Char :=
  match d.digits with
  | [] => ['0']
  | [digit] => digit :: 'e' :: exponentText (d.point - 1)
  | digit :: more => digit :: '.' :: (more ++ 'e' :: exponentText (d.point - 1))

/-- The text of a trimmed decimal. -/
def text (layout : Layout) (d : Decimal) : List Char :=
  if d.digits.isEmpty then ['0', '.', '0']
  else if layout.positional d.point then d.positionalText
  else d.scientificText

end Decimal

namespace Binary64

/-- The text of a finite word in the given layout, with a sign when the sign bit is set. -/
def finiteText (layout : Decimal.Layout) (x : Binary64) : List Char :=
  let digits := (x.decimal layout.tie).text layout
  if x.negative then '-' :: digits else digits

/-- The text of a word in a diagnostic: what is no finite number has a name, the rest is written
positionally. -/
def plainText (x : Binary64) : String :=
  if x.isNaN then "NaN"
  else if x.isFinite then String.ofList (x.finiteText .plain)
  else if x.negative then "-inf"
  else "inf"

end Binary64
end PolicyReview
