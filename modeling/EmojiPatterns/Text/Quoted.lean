import EmojiPatterns.Text.Numeral
import EmojiPatterns.Unicode.Visible

/-!
# Quoted names

A name in a description stands between double quotes.  Quotes, backslashes and the common control
characters get a backslash, every other character that does not show by itself is written by its
code point, and the rest stands as it is.
-/

namespace EmojiPatterns

/-- How one character is written between quotes. -/
def quotedChar (c : Char) : List Char :=
  match c with
  | '"' => ['\\', '"']
  | '\\' => ['\\', '\\']
  | '\x00' => ['\\', '0']
  | '\t' => ['\\', 't']
  | '\n' => ['\\', 'n']
  | '\r' => ['\\', 'r']
  | c =>
    if Unicode.isVisible c then [c]
    else ['\\', 'u', '\x7b'] ++ (Numeral.write 16 c.toNat).map Char.toLower ++ ['\x7d']

/-- A name between double quotes. -/
def quoted (name : String) : String :=
  String.ofList ('"' :: name.toList.flatMap quotedChar ++ ['"'])

example : quoted "a\"b\x07" = "\"a\\\"b\\u\x7b7\x7d\"" := by cbv

end EmojiPatterns
