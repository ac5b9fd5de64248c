/-!
# Blank text

Blank characters are the characters with the Unicode property `White_Space`.  A setting that must
not be empty must hold at least one character that is not blank.
-/

namespace PolicyReview
namespace Text

/-- The code points with the Unicode property `White_Space`, as closed ranges. -/
def blankRanges : List (Nat × Nat) :=
  [(0x9, 0xD), (0x20, 0x20), (0x85, 0x85), (0xA0, 0xA0), (0x1680, 0x1680), (0x2000, 0x200A),
    (0x2028, 0x2029), (0x202F, 0x202F), (0x205F, 0x205F), (0x3000, 0x3000)]

/-- A code point lies in one of the closed ranges. -/
def inRanges (ranges : List (Nat × Nat)) (code : Nat) : Bool :=
  ranges.any fun range => range.1 ≤ code && code ≤ range.2

/-- The character has the Unicode property `White_Space`. -/
def isBlankChar (c : Char) : Bool :=
  inRanges blankRanges c.toNat

/-- The text holds no character other than blanks; the empty text is blank. -/
def isBlank (text : String) : Bool :=
  text.toList.all isBlankChar

end Text
end PolicyReview
