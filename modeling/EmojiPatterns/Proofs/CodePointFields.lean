import EmojiPatterns.SequenceData
import Mathlib.Data.List.Basic

/-!
# What a field of code points adds

A range is expanded one code point after another, and it ends at the first that is no character;
what was expanded by then is kept.  A sequence is added as a whole or not at all.  Main statements:
`FieldReading.range_eq_expand`, `FieldReading.remains_of_failure`.
-/

namespace EmojiPatterns

theorem Unicode.le_firstInvalid (lo : Nat) : lo ≤ firstInvalid lo := by
  unfold firstInvalid
  split
  · omega
  · split
    · omega
    · split <;> omega

theorem Unicode.scalar?_firstInvalid (lo : Nat) : scalar? (firstInvalid lo) = none :=
  (scalar?_eq_none_iff_of_le (le_firstInvalid lo) (Nat.le_refl _)).mpr rfl

/-- From `lo` up to the first code point that is none there are characters only. -/
theorem Unicode.exists_chars_of_le {lo hi : Nat} (hhi : hi ≤ firstInvalid lo) :
    ∃ chars : List Char, chars.map Char.toNat = List.range' lo (hi - lo) := by
  have hvalid : ∀ codePoint ∈ List.range' lo (hi - lo),
      ((scalar? codePoint).map Char.toNat) = some codePoint := by
    intro codePoint hmem
    rw [List.mem_range'_1] at hmem
    have hne : codePoint ≠ firstInvalid lo := by omega
    have hsome := mt (scalar?_eq_none_iff_of_le hmem.1 (by omega)).mp hne
    obtain ⟨c, hc⟩ := Option.ne_none_iff_exists'.mp hsome
    rw [hc, Option.map_some, scalar?_eq_some_iff.mp hc]
  refine ⟨(List.range' lo (hi - lo)).filterMap scalar?, ?_⟩
  rw [List.map_filterMap, List.filterMap_congr hvalid, List.filterMap_some]

namespace FieldReading

/-! ### Ranges -/

/-- Code points one after another, each a sequence by itself, up to the first that is none. -/
def expand : List Nat → FieldReading
  | [] => ⟨[], none⟩
  | codePoint :: rest =>
    match Sequence.ofCodePoints [codePoint] with
    | .error error => ⟨[], some (.inr error)⟩
    | .ok sequence => ⟨sequence :: (expand rest).sequences, (expand rest).failure⟩

theorem expand_toNat_cons (c : Char) (rest : List Nat) :
    expand (c.toNat :: rest) =
      ⟨.singleton c :: (expand rest).sequences, (expand rest).failure⟩ := by
  have hone : Sequence.ofCodePoints [c.toNat] = .ok (.singleton c) := by
    simp only [Sequence.ofCodePoints, Sequence.scalars, Unicode.scalar?_toNat, Except.map]
    rfl
  rw [expand, hone]

theorem expand_invalid_cons {codePoint : Nat} (hinvalid : Unicode.scalar? codePoint = none)
    (rest : List Nat) :
    expand (codePoint :: rest) = ⟨[], some (.inr (.invalidCodePoint codePoint))⟩ := by
  rw [expand, Sequence.ofCodePoints, Sequence.scalars, hinvalid]

/-- What comes behind characters is expanded in turn. -/
theorem expand_append (chars : List Char) (rest : List Nat) :
    expand (chars.map Char.toNat ++ rest) =
      ⟨chars.map Sequence.singleton ++ (expand rest).sequences, (expand rest).failure⟩ := by
  induction chars with
  | nil => rfl
  | cons c chars ih =>
    rw [List.map_cons, List.cons_append, expand_toNat_cons, ih]
    rfl

theorem expand_toNat (chars : List Char) :
    expand (chars.map Char.toNat) = ⟨chars.map Sequence.singleton, none⟩ := by
  simpa [expand] using expand_append chars []

theorem sequences_range {lo : Nat} {chars : List Char} (hi : Nat)
    (hchars : chars.map Char.toNat =
      List.range' lo (min (Unicode.firstInvalid lo) (hi + 1) - lo)) :
    (range lo hi).sequences = chars.map Sequence.singleton := by
  simp only [range, ← hchars, List.filterMap_map, Function.comp_def, Unicode.scalar?_toNat,
    Option.map_some, List.filterMap_eq_map']

/-- The code points of a range are taken one after another. -/
theorem range_eq_expand (lo hi : Nat) :
    range lo hi = expand (List.range' lo (hi + 1 - lo)) := by
  have hlo := Unicode.le_firstInvalid lo
  obtain ⟨chars, hchars⟩ := Unicode.exists_chars_of_le
    (show min (Unicode.firstInvalid lo) (hi + 1) ≤ Unicode.firstInvalid lo from Nat.min_le_left _ _)
  have hsequences := sequences_range hi hchars
  by_cases hfirst : Unicode.firstInvalid lo ≤ hi
  · have hcodePoints : List.range' lo (hi + 1 - lo) = chars.map Char.toNat ++
        Unicode.firstInvalid lo ::
          List.range' (Unicode.firstInvalid lo + 1) (hi - Unicode.firstInvalid lo) := by
      have hsplit := @List.range'_append_1 lo (Unicode.firstInvalid lo - lo)
        (hi - Unicode.firstInvalid lo + 1)
      rw [Nat.add_sub_cancel' hlo] at hsplit
      rw [hchars, Nat.min_eq_left (by omega), ← List.range'_succ, hsplit]
      congr 1
      omega
    rw [hcodePoints, expand_append, expand_invalid_cons (Unicode.scalar?_firstInvalid lo),
      List.append_nil, ← hsequences, range, if_pos hfirst]
  · rw [Nat.min_eq_right (by omega)] at hchars
    rw [← hchars, expand_toNat, ← hsequences, range, if_neg hfirst]

/-! ### What is left of a field with a fault -/

/-- The sequences that are added for a field although it ends the file. -/
inductive Remains (field : List Char) : DataError → List Sequence → Prop where
  /-- The field says nothing that can be read. -/
  | line (number : Nat) (fault : LineFault) : Remains field (.line number fault) []
  | empty : Remains field (.badSequence .empty) []
  /-- A sequence with a bad code point is left out as a whole. -/
  | sequence (codePoint : Nat) (hfield : splitAtDots? field = none) :
      Remains field (.badSequence (.invalidCodePoint codePoint)) []
  /-- Of a range the characters before its first bad code point are kept. -/
  | range {lo hi : List Char} {first last codePoint : Nat} {chars : List Char}
      (hfield : splitAtDots? field = some (lo, hi))
      (hfirst : Numeral.readCodePoint? (trim lo) = some first)
      (hlast : Numeral.readCodePoint? (trim hi) = some last)
      (hle : first ≤ codePoint ∧ codePoint ≤ last)
      (hinvalid : Unicode.scalar? codePoint = none)
      (hchars : chars.map Char.toNat = List.range' first (codePoint - first)) :
      Remains field (.badSequence (.invalidCodePoint codePoint)) (chars.map Sequence.singleton)

theorem codePoint_eq_ok_iff {text : List Char} {value : Nat} :
    codePoint text = .ok value ↔ Numeral.readCodePoint? text = some value := by
  rw [codePoint]
  cases Numeral.readCodePoint? text with
  | none => simp
  | some other => simp

/-- The fault of a field as the fault of the line with a given number. -/
def errorAt (number : Nat) : LineFault ⊕ SequenceError → DataError
  | .inl fault => .line number fault
  | .inr error => .badSequence error

/-- A range ends at its first code point that is no character. -/
theorem failure_range {lo hi : Nat} {failure : LineFault ⊕ SequenceError}
    (hfailure : (range lo hi).failure = some failure) :
    ∃ chars : List Char, failure = .inr (.invalidCodePoint (Unicode.firstInvalid lo)) ∧
      Unicode.firstInvalid lo ≤ hi ∧
      chars.map Char.toNat = List.range' lo (Unicode.firstInvalid lo - lo) ∧
      (range lo hi).sequences = chars.map Sequence.singleton := by
  simp only [range, Option.ite_none_right_eq_some, Option.some.injEq] at hfailure
  obtain ⟨hle, rfl⟩ := hfailure
  obtain ⟨chars, hchars⟩ := Unicode.exists_chars_of_le (Nat.le_refl (Unicode.firstInvalid lo))
  refine ⟨chars, rfl, hle, hchars, sequences_range hi ?_⟩
  rw [Nat.min_eq_left (by omega), hchars]

/-- However the reading of a field ends early, what it has added by then is determined. -/
theorem remains_of_failure {field : List Char} {failure : LineFault ⊕ SequenceError}
    (hfailure : (ofField field).failure = some failure) (number : Nat) :
    Remains field (errorAt number failure) (ofField field).sequences := by
  have hline : ∀ fault, some (.inl fault) = some failure →
      Remains field (errorAt number failure) [] := by
    intro fault heq
    cases heq
    exact .line number fault
  rw [ofField] at hfailure ⊢
  split at hfailure
  · next lo hi hfield =>
    split at hfailure
    · exact hline _ hfailure
    · exact hline _ hfailure
    · next first last hfirst hlast =>
      split at hfailure
      · next hempty =>
        rw [if_pos hempty]
        exact hline _ hfailure
      · next hordered =>
        obtain ⟨chars, rfl, hle, hchars, hsequences⟩ := failure_range hfailure
        rw [if_neg hordered, hsequences]
        exact .range hfield (codePoint_eq_ok_iff.mp hfirst) (codePoint_eq_ok_iff.mp hlast)
          ⟨Unicode.le_firstInvalid first, hle⟩ (Unicode.scalar?_firstInvalid first) hchars
  · next hfield =>
    split at hfailure
    · exact hline _ hfailure
    · split at hfailure
      · next error _ =>
        cases hfailure
        cases error with
        | empty => exact .empty
        | invalidCodePoint codePoint => exact .sequence codePoint hfield
      · cases hfailure

end FieldReading

end EmojiPatterns
