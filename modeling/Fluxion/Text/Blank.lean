/-
# Blank characters

What separates two tokens, and what is cut off both ends of a line: the spaces of every script,
the line and paragraph separators, the tabs and line ends, and the four information separators
U+001C to U+001F.  Characters without width that are no spaces (U+200B, U+2060, U+FEFF) are not
blank.
-/
import Fluxion.Text.CodeRange

namespace Fluxion.Text

/-- The code points of the blank characters. -/
def blanks : CodeRanges :=
  [(0x09, 0x0d), (0x1c, 0x20), (0x85, 0x85), (0xa0, 0xa0), (0x1680, 0x1680),
   (0x2000, 0x200a), (0x2028, 0x2029), (0x202f, 0x202f), (0x205f, 0x205f), (0x3000, 0x3000)]

/-- A blank character. -/
def isBlank (c : Char) : Bool :=
  blanks.contains c

/-- The characters without those at either end that satisfy `p`. -/
def trim (p : Char → Bool) (cs : List Char) : List Char :=
  ((cs.dropWhile p).reverse.dropWhile p).reverse

/-- The text without the blank characters at its ends. -/
def strip (s : String) : String :=
  String.ofList (trim isBlank s.toList)

end Fluxion.Text
