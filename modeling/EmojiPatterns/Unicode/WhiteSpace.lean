import EmojiPatterns.Unicode.RangeTable

/-!
# The property White_Space

The characters with the property White_Space in Unicode 17.0.  Fields of a data file are trimmed of
them, and a pattern may name the property.
-/

namespace EmojiPatterns.Unicode

/-- The ranges of the property White_Space. -/
def whiteSpaceTable : RangeTable :=
  [ (0x0009, 0x000D), (0x0020, 0x0020), (0x0085, 0x0085), (0x00A0, 0x00A0), (0x1680, 0x1680),
    (0x2000, 0x200A), (0x2028, 0x2029), (0x202F, 0x202F), (0x205F, 0x205F), (0x3000, 0x3000) ]

/-- Whether a character has the property White_Space. -/
def isWhiteSpace (c : Char) : Bool :=
  whiteSpaceTable.contains c

end EmojiPatterns.Unicode
