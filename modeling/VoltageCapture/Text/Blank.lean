/-!
# Blank characters

A character is blank if it has the White_Space property of the Unicode standard
(25 characters, unchanged since version 6.3).  Header lines are trimmed of blanks
and split at them.  The separators U+001C to U+001F, the zero-width space and the
byte-order mark do not have the property.
-/

namespace VoltageCapture.Text

/-- The code points with the White_Space property, as closed ranges in ascending
order. -/
def blankRanges : List (Nat × Nat) :=
  [(0x09, 0x0D), (0x20, 0x20), (0x85, 0x85), (0xA0, 0xA0), (0x1680, 0x1680), (0x2000, 0x200A),
    (0x2028, 0x2029), (0x202F, 0x202F), (0x205F, 0x205F), (0x3000, 0x3000)]

/-- Whether a code point lies in one of the given closed ranges. -/
def inRanges (ranges : List (Nat × Nat)) (code : Nat) : Bool :=
  ranges.any fun range => range.1 ≤ code && code ≤ range.2

/-- Whether a character is blank. -/
def isBlank (c : Char) : Bool :=
  inRanges blankRanges c.toNat

end VoltageCapture.Text
