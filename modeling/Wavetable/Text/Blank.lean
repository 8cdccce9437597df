import Wavetable.Text.Ranges

/-!
Blanks: the characters that separate words, and texts without the blanks at their ends.
Trimming leaves a text that neither starts nor ends with a blank.
-/

namespace Wavetable.Text

/-- The separators of the four ASCII groups, the next-line and no-break marks, and every
Unicode space, line and paragraph separator.
-/
def blankRanges : Ranges :=
  [(0x9, 0xd), (0x1c, 0x20), (0x85, 0x85), (0xa0, 0xa0), (0x1680, 0x1680), (0x2000, 0x200a),
   (0x2028, 0x2029), (0x202f, 0x202f), (0x205f, 0x205f), (0x3000, 0x3000)]

/-- A blank separates words and is dropped at the ends of a trimmed text. -/
def isBlank (c : Char) : Bool :=
  blankRanges.has c

/-- The characters of a text without the blanks at both ends. -/
def trimChars (cs : List Char) : List Char :=
  ((cs.dropWhile isBlank).reverse.dropWhile isBlank).reverse

/-- A text without the blanks at both ends. -/
def trim (s : String) : String :=
  String.ofList (trimChars s.toList)

/-- A text that trims to nothing consists of blanks. -/
def isBlankText (s : String) : Bool :=
  s.toList.all isBlank

end Wavetable.Text
