import EmojiPatterns.Pattern.Reading
import EmojiPatterns.Unicode.Ascii
import EmojiPatterns.Unicode.CodePoint

/-!
# Escapes

What follows a backslash: a character that would otherwise be a sign, a code point between braces,
or the name of a property between braces.  Main statement: an escape takes at least one character
(`Escape.read_endsAfter`).
-/

namespace EmojiPatterns

variable {source : List Char}

namespace Escape

/-- The character with the code point that is written between braces.  `begin` is where the escape
starts. -/
def readCodePoint (begin : Nat) (c : Cursor source) : Reading Char source :=
  match c.next? with
  | some ('\x7b', d) =>
    match d.until? '\x7d' with
    | none => .broken none ⟨.unclosedCodePoint, ⟨begin, utf8Length source⟩⟩
    | some (digits, e) =>
      match (Numeral.readCodePoint? digits).bind Unicode.scalar? with
      | some x => .read x e
      | none => .broken none ⟨.invalidCodePoint, ⟨begin, e.offset⟩⟩
  | _ => .broken none ⟨.codePointBrace, ⟨begin, c.offset⟩⟩

/-- The character that an escape stands for, read from behind the backslash. -/
def readChar (begin : Nat) (c : Cursor source) : Reading Char source :=
  match c.next? with
  | none => .broken none ⟨.trailingBackslash, ⟨begin, c.offset⟩⟩
  | some ('n', d) => .read '\n' d
  | some ('r', d) => .read '\r' d
  | some ('t', d) => .read '\t' d
  | some ('u', d) => readCodePoint begin d
  | some (x, d) =>
    if Unicode.isAsciiPunctuation x then .read x d
    else .broken none ⟨.unknownEscape x, ⟨begin, d.offset⟩⟩

/-- The reference to the property that is named between braces. -/
def readProperty (begin : Nat) (negated : Bool) (enclosure : Enclosure) (c : Cursor source) :
    Reading PropertyReference source :=
  match c.next? with
  | some ('\x7b', d) =>
    match d.until? '\x7d' with
    | none => .broken none ⟨.unclosedProperty, ⟨begin, utf8Length source⟩⟩
    | some (name, e) =>
      if name = [] then .broken none ⟨.emptyPropertyName, ⟨begin, e.offset⟩⟩
      else .read ⟨String.ofList name, negated, enclosure, ⟨begin, e.offset⟩⟩ e
  | _ => .broken none ⟨.propertyBrace, ⟨begin, c.offset⟩⟩

/-- Reads an escape from behind the backslash: a reference to a property after `p` or `P`, and a
character after anything else. -/
def read (begin : Nat) (enclosure : Enclosure) (c : Cursor source) :
    Reading (PropertyReference ⊕ Char) source :=
  match c.next? with
  | some ('p', d) => (readProperty begin false enclosure d).map .inl
  | some ('P', d) => (readProperty begin true enclosure d).map .inl
  | _ => (readChar begin c).map .inr

theorem readCodePoint_endsAfter (begin : Nat) (c : Cursor source) :
    (readCodePoint begin c).EndsAfter c := by
  unfold readCodePoint
  split
  · next d hnext =>
    split
    · trivial
    · next digits e huntil =>
      split
      · exact Cursor.lt_trans (Cursor.lt_of_next?_eq_some hnext)
          (Cursor.lt_of_until?_eq_some huntil)
      · trivial
  · trivial

theorem readChar_endsAfter (begin : Nat) (c : Cursor source) :
    (readChar begin c).EndsAfter c := by
  unfold readChar
  split
  · trivial
  · next hnext => exact Cursor.lt_of_next?_eq_some hnext
  · next hnext => exact Cursor.lt_of_next?_eq_some hnext
  · next hnext => exact Cursor.lt_of_next?_eq_some hnext
  · next d hnext =>
    exact (readCodePoint_endsAfter begin d).of_lt (Cursor.lt_of_next?_eq_some hnext)
  · next hnext =>
    split
    · exact Cursor.lt_of_next?_eq_some hnext
    · trivial

theorem readProperty_endsAfter (begin : Nat) (negated : Bool) (enclosure : Enclosure)
    (c : Cursor source) : (readProperty begin negated enclosure c).EndsAfter c := by
  unfold readProperty
  split
  · next d hnext =>
    split
    · trivial
    · next name e huntil =>
      split
      · trivial
      · exact Cursor.lt_trans (Cursor.lt_of_next?_eq_some hnext)
          (Cursor.lt_of_until?_eq_some huntil)
  · trivial

theorem read_endsAfter (begin : Nat) (enclosure : Enclosure) (c : Cursor source) :
    (read begin enclosure c).EndsAfter c := by
  unfold read
  split
  · next d hnext =>
    exact (readProperty_endsAfter begin false enclosure d).map.of_lt
      (Cursor.lt_of_next?_eq_some hnext)
  · next d hnext =>
    exact (readProperty_endsAfter begin true enclosure d).map.of_lt
      (Cursor.lt_of_next?_eq_some hnext)
  · exact (readChar_endsAfter begin c).map

end Escape

end EmojiPatterns
