import EmojiPatterns.Proofs.WrittenNumerals
import EmojiPatterns.Unicode.Ascii

/-!
# Hexadecimal numerals

A hexadecimal numeral is a run of at least one hexadecimal digit; the case of its letters and zeros
in front do not change its value.  Code points are read from numerals whose value has at most 32
bits, and one plus sign may stand in front.  Main statement: `Numeral.readCodePoint?_eq_some_iff`.
-/

namespace EmojiPatterns.Numeral

/-- The hexadecimal digits in the order of their values. -/
def hexDigits : List Char :=
  ['0', '1', '2', '3', '4', '5', '6', '7', '8', '9', 'a', 'b', 'c', 'd', 'e', 'f']

/-- The value of digits that follow on a number already read, each place counting sixteen times as
much as the next. -/
def hexValueFrom (value : Nat) (text : List Char) : Nat :=
  text.foldl (fun value c => 16 * value + hexDigits.idxOf c.toLower) value

/-- A text is a hexadecimal numeral with a value. -/
structure IsHex (text : List Char) (value : Nat) : Prop where
  nonempty : text ≠ []
  digits : ∀ c ∈ text, Unicode.isAsciiHexDigit c = true
  hexValue : hexValueFrom 0 text = value

theorem isHex_iff {text : List Char} {value : Nat} :
    IsHex text value ↔
      text ≠ [] ∧ text.all Unicode.isAsciiHexDigit = true ∧ hexValueFrom 0 text = value := by
  rw [List.all_eq_true]
  constructor
  · intro hhex
    exact ⟨hhex.nonempty, hhex.digits, hhex.hexValue⟩
  · intro hparts
    exact ⟨hparts.1, hparts.2.1, hparts.2.2⟩

instance (text : List Char) (value : Nat) : Decidable (IsHex text value) :=
  decidable_of_iff _ isHex_iff.symm

example : IsHex ['0', '0', 'e', 'F'] 0xEF := by decide

example : ¬ IsHex ['+', '4', '1'] 0x41 := by decide

theorem digitValue?_sixteen (c : Char) :
    digitValue? 16 c =
      if Unicode.isAsciiHexDigit c then some (hexDigits.idxOf c.toLower) else none := by
  have hascii : ∀ code : Fin 128, digitValue? 16 (Char.ofNat code) =
      if Unicode.isAsciiHexDigit (Char.ofNat code) then
        some (hexDigits.idxOf (Char.ofNat code).toLower) else none := by
    decide
  by_cases hc : c.toNat < 128
  · have hcode := hascii ⟨c.toNat, hc⟩
    rwa [Char.ofNat_toNat] at hcode
  · have habove : ∀ d : Char, d.toNat < 128 → ¬ c ≤ d := by
      intro d hd hle
      exact hc (Nat.lt_of_le_of_lt hle hd)
    simp [digitValue?, Unicode.isAsciiHexDigit, habove]

theorem valueFrom?_sixteen_eq_some_iff {value result : Nat} {text : List Char} :
    valueFrom? 16 value text = some result ↔
      (∀ c ∈ text, Unicode.isAsciiHexDigit c = true) ∧ hexValueFrom value text = result := by
  induction text generalizing value with
  | nil => simp [valueFrom?, hexValueFrom]
  | cons c rest ih =>
    rw [valueFrom?, digitValue?_sixteen]
    by_cases hc : Unicode.isAsciiHexDigit c = true
    · simp only [hc, ↓reduceIte, ih, List.forall_mem_cons, true_and, Nat.mul_comm value 16]
      rfl
    · simp [hc]

theorem valueOf?_sixteen_eq_some_iff {text : List Char} {value : Nat} :
    valueOf? 16 text = some value ↔ IsHex text value := by
  by_cases htext : text = []
  · subst htext
    exact iff_of_false nofun fun hhex => hhex.nonempty rfl
  · rw [valueOf?_of_ne_nil htext, valueFrom?_sixteen_eq_some_iff, isHex_iff, List.all_eq_true]
    exact (and_iff_right htext).symm

/-- A hexadecimal numeral that may have one plus sign in front. -/
inductive IsSignedHex : List Char → Nat → Prop where
  | bare {text : List Char} {value : Nat} (hhex : IsHex text value) : IsSignedHex text value
  | plus {text : List Char} {value : Nat} (hhex : IsHex text value) :
      IsSignedHex ('+' :: text) value

theorem IsSignedHex.ne_nil {text : List Char} {value : Nat} (hsigned : IsSignedHex text value) :
    text ≠ [] := by
  cases hsigned with
  | bare hhex => exact hhex.nonempty
  | plus => exact List.cons_ne_nil _ _

theorem isSignedHex_iff_isHex_unsigned {text : List Char} {value : Nat} :
    IsSignedHex text value ↔ IsHex (unsigned text) value := by
  constructor
  · intro hsigned
    cases hsigned with
    | plus hhex => exact hhex
    | bare hhex =>
      unfold unsigned
      split
      · next rest =>
        have hplus := hhex.digits '+' List.mem_cons_self
        exact absurd hplus (by decide)
      · exact hhex
  · intro hhex
    unfold unsigned at hhex
    split at hhex
    · exact .plus hhex
    · exact .bare hhex

/-- A code point is read from the numerals of at most 32 bits, and from these with one plus sign in
front. -/
theorem readCodePoint?_eq_some_iff {text : List Char} {value : Nat} :
    readCodePoint? text = some value ↔ IsSignedHex text value ∧ value < 0x100000000 := by
  rw [readCodePoint?, read?, Option.filter_eq_some_iff, valueOf?_sixteen_eq_some_iff,
    isSignedHex_iff_isHex_unsigned, decide_eq_true_eq]

end EmojiPatterns.Numeral
