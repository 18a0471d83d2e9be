import EmojiPatterns.Unicode.Alphabetic
import EmojiPatterns.Unicode.Ascii
import EmojiPatterns.Unicode.Lowercase
import EmojiPatterns.Unicode.Uppercase
import EmojiPatterns.Unicode.WhiteSpace

/-!
# Properties of characters by name

A small choice of Unicode's binary properties, each under its long name and, where it has one, its
short alias.
-/

namespace EmojiPatterns.Unicode

/-- The letters that flags are spelled with. -/
def isRegionalIndicator (c : Char) : Bool :=
  RangeTable.contains [(0x1F1E6, 0x1F1FF)] c

/-- The five skin tones. -/
def isEmojiModifier (c : Char) : Bool :=
  RangeTable.contains [(0x1F3FB, 0x1F3FF)] c

def isVariationSelector (c : Char) : Bool :=
  RangeTable.contains
    [(0x180B, 0x180D), (0x180F, 0x180F), (0xFE00, 0xFE0F), (0xE0100, 0xE01EF)] c

/-- The property of characters with a given name. -/
def binaryProperty? (name : String) : Option (Char → Bool) :=
  match name with
  | "Any" => some fun _ => true
  | "ASCII" => some isAscii
  | "Alphabetic" | "Alpha" => some isAlphabetic
  | "White_Space" | "space" => some isWhiteSpace
  | "Lowercase" | "Lower" => some isLowercase
  | "Uppercase" | "Upper" => some isUppercase
  | "ASCII_Hex_Digit" | "AHex" => some isAsciiHexDigit
  | "Regional_Indicator" | "RI" => some isRegionalIndicator
  | "Emoji_Modifier" | "EMod" => some isEmojiModifier
  | "Variation_Selector" | "VS" => some isVariationSelector
  | _ => none

end EmojiPatterns.Unicode
