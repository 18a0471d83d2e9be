import EmojiPatterns.Text.Numeral

/-!
# Unicode versions

Emoji data belongs to one version of Unicode.  Two numbers are enough to name it, and data never
mixes versions.
-/

namespace EmojiPatterns

/-- A version of the Unicode standard. -/
structure Version where
  major : UInt8
  minor : UInt8
deriving DecidableEq

namespace Version

/-- The version that tables are built for unless another is asked for. -/
def pinned : Version :=
  ⟨15, 1⟩

/-- The numbers with a point between them. -/
def toString (version : Version) : String :=
  Numeral.decimal version.major.toNat ++ "." ++ Numeral.decimal version.minor.toNat

/-- A later version has the larger major number, or the same one and the larger minor number. -/
instance : LE Version :=
  ⟨fun left right => left.major < right.major ∨ left.major = right.major ∧ left.minor ≤ right.minor⟩

instance (left right : Version) : Decidable (left ≤ right) :=
  inferInstanceAs (Decidable (_ ∨ _))

/-- One number of a version. -/
def readNumber? (text : List Char) : Option UInt8 :=
  (Numeral.read? 10 256 text).map UInt8.ofNat

/-- Reads a version such as `15.1`.  The minor number may be missing, and what follows a second
point is not looked at. -/
def read? (text : List Char) : Option Version :=
  match text.splitOn '.' with
  | [] => none
  | [major] => (readNumber? major).map fun major => ⟨major, 0⟩
  | major :: minor :: _ =>
    match readNumber? major, readNumber? minor with
    | some major, some minor => some ⟨major, minor⟩
    | _, _ => none

example : read? "15.1.2".toList = some ⟨15, 1⟩ ∧ read? "15".toList = some ⟨15, 0⟩ := by decide

example : read? "15.".toList = none ∧ read? "256.0".toList = none := by decide

end Version

end EmojiPatterns
