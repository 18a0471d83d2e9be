/-!
# Scalar values among the code points

A code point is a number; a character is a scalar value, a code point up to `0x10FFFF` that is not
a surrogate.  Main statement: `firstInvalid` finds the next code point that is no character
(`scalar?_eq_none_iff_of_le`).
-/

namespace EmojiPatterns.Unicode

/-- The character with a given code point. -/
def scalar? (codePoint : Nat) : Option Char :=
  if codePoint.isValidChar then some (Char.ofNat codePoint) else none

/-- The least code point from `lo` on that is not a scalar value. -/
def firstInvalid (lo : Nat) : Nat :=
  if lo < 0xD800 then 0xD800
  else if lo < 0xE000 then lo
  else if lo < 0x110000 then 0x110000
  else lo

theorem toNat_ofNat {codePoint : Nat} (hvalid : codePoint.isValidChar) :
    (Char.ofNat codePoint).toNat = codePoint := by
  rw [Char.ofNat, dif_pos hvalid]
  exact UInt32.toNat_ofNatLT

theorem scalar?_eq_some_iff {codePoint : Nat} {c : Char} :
    scalar? codePoint = some c ↔ c.toNat = codePoint := by
  unfold scalar?
  split
  · next hvalid =>
    rw [Option.some.injEq, ← Char.toNat_inj, toNat_ofNat hvalid]
    exact eq_comm
  · next hinvalid =>
    refine iff_of_false nofun ?_
    rintro rfl
    exact hinvalid c.valid

@[simp]
theorem scalar?_toNat (c : Char) : scalar? c.toNat = some c :=
  scalar?_eq_some_iff.mpr rfl

theorem scalar?_eq_none_iff {codePoint : Nat} :
    scalar? codePoint = none ↔ ¬ codePoint.isValidChar := by
  unfold scalar?
  split
  · next hvalid => exact iff_of_false (Option.some_ne_none _) (not_not_intro hvalid)
  · next hinvalid => exact iff_of_true rfl hinvalid

/-- Among the code points from `lo` on, `firstInvalid lo` is the first that is no character. -/
theorem scalar?_eq_none_iff_of_le {lo codePoint : Nat} (hlo : lo ≤ codePoint)
    (hhi : codePoint ≤ firstInvalid lo) :
    scalar? codePoint = none ↔ codePoint = firstInvalid lo := by
  rw [scalar?_eq_none_iff, Nat.isValidChar]
  simp only [firstInvalid] at hhi ⊢
  repeat' split at hhi
  all_goals simp only [*, ↓reduceIte]; omega

end EmojiPatterns.Unicode
