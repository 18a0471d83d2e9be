import EmojiPatterns.Text.Numeral
import EmojiPatterns.Text.Order
import EmojiPatterns.Text.Utf8
import EmojiPatterns.Unicode.CodePoint

/-!
# Code point sequences

A `Sequence` is a non-empty run of characters that is matched as one unit, such as an emoji with
its modifiers.  Sequences are ordered by their code points, and one is a prefix of another by its
UTF-8 bytes.
-/

namespace EmojiPatterns

/-- A non-empty sequence of characters. -/
structure Sequence where
  chars : List Char
  nonempty : chars ≠ []
deriving DecidableEq

/-- Why code points do not make a sequence. -/
inductive SequenceError where
  /-- There are none. -/
  | empty
  /-- One of them is not a scalar value. -/
  | invalidCodePoint (codePoint : Nat)
deriving DecidableEq

namespace SequenceError

def message : SequenceError → String
  | empty => "empty code point sequence"
  | invalidCodePoint codePoint =>
    "U+" ++ Numeral.codePoint codePoint ++ " is not a Unicode scalar value"

end SequenceError

namespace Sequence

/-- The sequence of the given characters, if there are any. -/
def ofChars? (chars : List Char) : Option Sequence :=
  if hnonempty : chars ≠ [] then some ⟨chars, hnonempty⟩ else none

/-- The sequence of one character. -/
def singleton (c : Char) : Sequence :=
  ⟨[c], by simp⟩

/-- The characters with the given code points, or the first code point that is not a scalar
value. -/
def scalars : List Nat → Except SequenceError (List Char)
  | [] => .ok []
  | codePoint :: rest =>
    match Unicode.scalar? codePoint with
    | none => .error (.invalidCodePoint codePoint)
    | some c => (scalars rest).map (c :: ·)

/-- The sequence with the given code points. -/
def ofCodePoints (codePoints : List Nat) : Except SequenceError Sequence :=
  match scalars codePoints with
  | .error error => .error error
  | .ok chars =>
    match ofChars? chars with
    | none => .error .empty
    | some sequence => .ok sequence

/-- The first character. -/
def first (sequence : Sequence) : Char :=
  sequence.chars.head sequence.nonempty

/-- Number of characters. -/
def length (sequence : Sequence) : Nat :=
  sequence.chars.length

/-- Number of bytes in the UTF-8 form. -/
def utf8Length (sequence : Sequence) : Nat :=
  EmojiPatterns.utf8Length sequence.chars

/-- The UTF-8 form. -/
def utf8Bytes (sequence : Sequence) : List UInt8 :=
  EmojiPatterns.utf8Bytes sequence.chars

/-- Whether there is only one character. -/
def isSingle (sequence : Sequence) : Bool :=
  sequence.length == 1

/-- Whether the bytes of one sequence go on as those of a longer one. -/
def isStrictPrefixOf (left right : Sequence) : Bool :=
  left.utf8Length < right.utf8Length && left.utf8Bytes.isPrefixOf right.utf8Bytes

/-- The code points between brackets. -/
def toString (sequence : Sequence) : String :=
  "[" ++ " ".intercalate (sequence.chars.map fun c => Numeral.codePoint c.toNat) ++ "]"

/-- Sequences are ordered by their code points, a prefix before what continues it. -/
instance : LT Sequence :=
  ⟨fun left right => TextLT left.chars right.chars⟩

instance : LE Sequence :=
  ⟨fun left right => ¬ right < left⟩

instance (left right : Sequence) : Decidable (left < right) :=
  inferInstanceAs (Decidable (TextLT left.chars right.chars))

instance (left right : Sequence) : Decidable (left ≤ right) :=
  inferInstanceAs (Decidable (¬ right < left))

@[ext]
theorem ext {left right : Sequence} (hchars : left.chars = right.chars) : left = right := by
  cases left; cases right
  simp_all

protected theorem lt_irrefl (sequence : Sequence) : ¬ sequence < sequence :=
  textLT_irrefl sequence.chars

protected theorem lt_trans {left mid right : Sequence} (hleft : left < mid) (hright : mid < right) :
    left < right :=
  textLT_trans hleft hright

protected theorem lt_trichotomy (left right : Sequence) :
    left < right ∨ left = right ∨ right < left := by
  rcases textLT_trichotomy left.chars right.chars with hlt | heq | hgt
  · exact .inl hlt
  · exact .inr (.inl (ext heq))
  · exact .inr (.inr hgt)

protected theorem le_iff_lt_or_eq {left right : Sequence} :
    left ≤ right ↔ left < right ∨ left = right := by
  constructor
  · intro hle
    rcases Sequence.lt_trichotomy left right with hlt | heq | hgt
    · exact .inl hlt
    · exact .inr heq
    · exact absurd hgt hle
  · rintro (hlt | rfl) hgt
    · exact Sequence.lt_irrefl left (Sequence.lt_trans hlt hgt)
    · exact Sequence.lt_irrefl left hgt

protected theorem lt_of_lt_of_le {left mid right : Sequence} (hleft : left < mid)
    (hright : mid ≤ right) : left < right := by
  rcases Sequence.le_iff_lt_or_eq.mp hright with hlt | rfl
  · exact Sequence.lt_trans hleft hlt
  · exact hleft

protected theorem le_trans {left mid right : Sequence} (hleft : left ≤ mid) (hright : mid ≤ right) :
    left ≤ right := by
  rcases Sequence.le_iff_lt_or_eq.mp hleft with hlt | rfl
  · exact Sequence.le_iff_lt_or_eq.mpr (.inl (Sequence.lt_of_lt_of_le hlt hright))
  · exact hright

protected theorem le_total (left right : Sequence) : left ≤ right ∨ right ≤ left := by
  rcases Sequence.lt_trichotomy left right with hlt | heq | hgt
  · exact .inl (Sequence.le_iff_lt_or_eq.mpr (.inl hlt))
  · exact .inl (Sequence.le_iff_lt_or_eq.mpr (.inr heq))
  · exact .inr (Sequence.le_iff_lt_or_eq.mpr (.inl hgt))

example : ofCodePoints [0x23, 0xD800, 0x110000] = .error (.invalidCodePoint 0xD800) := rfl

example : (singleton '#').toString = "[0023]" := by cbv

end Sequence

end EmojiPatterns
