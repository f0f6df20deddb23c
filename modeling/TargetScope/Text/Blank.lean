import TargetScope.Text.CodeRange

/-!
# Blank characters

The characters that separate the words of a line: the white space of Unicode and the four
information separators.
-/

namespace TargetScope.Text

/-- The code points of the blank characters. -/
def blanks : List CodeRange :=
  [(0x9, 0xD), (0x1C, 0x20), (0x85, 0x85), (0xA0, 0xA0), (0x1680, 0x1680), (0x2000, 0x200A),
    (0x2028, 0x2029), (0x202F, 0x202F), (0x205F, 0x205F), (0x3000, 0x3000)]

/-- A blank character. -/
def isBlank (c : Char) : Bool :=
  inRanges blanks c

/-- A text without the blank characters at its two ends. -/
def strip (text : List Char) : List Char :=
  ((text.dropWhile isBlank).reverse.dropWhile isBlank).reverse

end TargetScope.Text
