import EmojiPatterns.Proofs.Grammar
import EmojiPatterns.Proofs.HexNumerals

/-!
# Quoted characters

Every character that has a meaning of its own, in a class or outside of one, is ASCII punctuation,
and a backslash before it takes the meaning away.  So any character can be written to stand for
itself, and any can be written by its code point too.  Main statements: `Derives.atom_of_quotes`,
`Escape.spellsChar_quote`.
-/

namespace EmojiPatterns

theorem isAsciiPunctuation_of_mem_specialChars {c : Char} (hspecial : c ∈ specialChars) :
    Unicode.isAsciiPunctuation c = true := by
  have hall : specialChars.all Unicode.isAsciiPunctuation = true := by decide
  exact List.all_eq_true.mp hall c hspecial

theorem Numeral.IsHex.not_mem_of_not_isAsciiHexDigit {digits : List Char} {value : Nat} {c : Char}
    (hhex : IsHex digits value) (hc : Unicode.isAsciiHexDigit c = false) : c ∉ digits := by
  intro hmem
  simp [hhex.digits c hmem] at hc

namespace Escape

/-- A character with a backslash before it, if it is ASCII punctuation. -/
def quote (c : Char) : List Char :=
  if Unicode.isAsciiPunctuation c then ['\\', c] else [c]

/-- The escape of the code point that some digits stand for. -/
def ofDigits (digits : List Char) : List Char :=
  '\\' :: 'u' :: '\x7b' :: (digits ++ ['\x7d'])

/-- The ways to write a character that stands for itself.  The hexadecimal digits of a code point
may be of either case, with any number of zeros in front. -/
inductive Quotes : List Char → Char → Prop where
  | quote (c : Char) : Quotes (quote c) c
  | codePoint {digits : List Char} {c : Char} (hhex : Numeral.IsHex digits c.toNat) :
      Quotes (ofDigits digits) c

theorem spells_codePoint {digits : List Char} {c : Char} (hhex : Numeral.IsHex digits c.toNat) :
    Spells ('u' :: '\x7b' :: (digits ++ ['\x7d'])) c := by
  have hbound : c.toNat < 0x100000000 := c.val.toNat_lt
  exact .codePoint (hhex.not_mem_of_not_isAsciiHexDigit rfl)
    (Numeral.readCodePoint?_eq_some_iff.mpr ⟨.bare hhex, hbound⟩) (Unicode.scalar?_toNat c)

theorem spellsChar_quote (c : Char) : ClassItem.SpellsChar (quote c) c := by
  unfold quote
  split
  · next hpunctuation => exact .escaped (.punctuation hpunctuation)
  · next hplain =>
    refine .raw ?_ ?_ <;>
    · rintro rfl
      exact hplain rfl

/-- Written so, no character is taken for another sign than the backslash. -/
theorem head?_quote_append_ne {sign : Char} (hsign : Unicode.isAsciiPunctuation sign = true)
    (hbackslash : sign ≠ '\\') (c : Char) (rest : List Char) :
    (quote c ++ rest).head? ≠ some sign := by
  unfold quote
  split
  · simpa using hbackslash.symm
  · next hplain =>
    rw [List.singleton_append, List.head?_cons, ne_eq, Option.some.injEq]
    rintro rfl
    exact hplain hsign

end Escape

theorem Derives.atom_of_quotes {resolver : Resolver} {word : List Char} {c : Char}
    (hquotes : Escape.Quotes word c) : Derives resolver .atom ⟨word, false, .char c⟩ := by
  cases hquotes with
  | codePoint hhex => exact .escape (Escape.spells_codePoint hhex)
  | quote =>
    unfold Escape.quote
    split
    · next hpunctuation => exact .escape (.punctuation hpunctuation)
    · next hplain =>
      exact .char fun hspecial => hplain (isAsciiPunctuation_of_mem_specialChars hspecial)

end EmojiPatterns
