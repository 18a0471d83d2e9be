/-!
# Parts of ASCII

The first 128 characters, and two of the groups into which they fall.
-/

namespace EmojiPatterns.Unicode

def isAscii (c : Char) : Bool :=
  c.toNat < 0x80

def isAsciiHexDigit (c : Char) : Bool :=
  ('0' ≤ c && c ≤ '9') || ('A' ≤ c && c ≤ 'F') || ('a' ≤ c && c ≤ 'f')

/-- The ASCII characters that are neither letters, digits, blanks nor controls. -/
def isAsciiPunctuation (c : Char) : Bool :=
  ('!' ≤ c && c ≤ '/') || (':' ≤ c && c ≤ '@') || ('[' ≤ c && c ≤ '\x60') ||
    ('\x7b' ≤ c && c ≤ '~')

end EmojiPatterns.Unicode
