/-
White space.

The blank characters are those with the Unicode property White_Space: the controls
from tab to carriage return, the next-line control, the space and the no-break space,
and the typographic spaces and separators. They are what may stand around the
tokens of a text, and what `\s` stands for in a pattern.
-/
import Descent.Text.CodeRanges

set_option autoImplicit false

namespace Descent.Text

/-- The code points that are white space. -/
def blankRanges : List (Nat × Nat) :=
  [(0x09, 0x0D), (0x20, 0x20), (0x85, 0x85), (0xA0, 0xA0), (0x1680, 0x1680), (0x2000, 0x200A),
   (0x2028, 0x2029), (0x202F, 0x202F), (0x205F, 0x205F), (0x3000, 0x3000)]

/-- The character is white space. -/
def isBlank (c : Char) : Bool :=
  inRanges c.toNat blankRanges

end Descent.Text
