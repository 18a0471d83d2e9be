import EmojiPatterns.Proofs.Descent
import EmojiPatterns.Proofs.PatternEnds

/-!
# Boundaries between characters

Offsets count bytes, so not every offset of a text is between two of its characters.  The cursors of
a text are its boundaries, and a match starts at one and ends at one that is no earlier.  A search
tries the boundaries from left to right, the end of the text last.  Main statements:
`Cursor.at?_eq_none_iff`, `Pattern.search_is_leftmost_and_sound`.
-/

namespace EmojiPatterns

variable {text : List Char}

namespace Cursor

/-- The boundaries of a text are its cursors. -/
theorem isSome_cut?_iff {offset : Nat} :
    (cut? text offset).isSome = true ↔ ∃ c : Cursor text, c.offset = offset := by
  constructor
  · intro hcut
    obtain ⟨⟨front, back⟩, hcut⟩ := Option.isSome_iff_exists.mp hcut
    obtain ⟨htext, hoffset⟩ := cut?_eq_some_iff.mp hcut
    exact ⟨⟨offset, back, front, htext, hoffset⟩, rfl⟩
  · rintro ⟨c, rfl⟩
    obtain ⟨behind, hcut⟩ := c.exists_cut?_eq_some
    rw [hcut]
    rfl

theorem isSome_cut?_offset (c : Cursor text) : (cut? text c.offset).isSome = true :=
  isSome_cut?_iff.mpr ⟨c, rfl⟩

/-- There is no cursor at an offset exactly if the text cannot be cut there. -/
theorem at?_eq_none_iff {offset : Nat} : at? text offset = none ↔ cut? text offset = none := by
  rw [← Option.not_isSome_iff_eq_none, ← Option.not_isSome_iff_eq_none, isSome_cut?_iff]
  apply not_congr
  simp only [Option.isSome_iff_exists, at?_eq_some_iff]

end Cursor

namespace Pattern

variable {pattern : Pattern} {offset stop : Nat}

theorem matchAt_eq_none_of_cut? (hcut : cut? text offset = none) :
    pattern.matchAt text offset = none := by
  rw [matchAt, Cursor.at?_eq_none_iff.mpr hcut]
  rfl

theorem matchAt_offset_eq_none_iff {c : Cursor text} :
    pattern.matchAt text c.offset = none ↔ pattern.root.ends c = [] := by
  rw [matchAt_offset, Option.map_eq_none_iff, List.head?_eq_none_iff]

/-- A match goes from a place to the first of the ends from there. -/
theorem matchAt_eq_some_iff :
    pattern.matchAt text offset = some stop ↔
      ∃ c d : Cursor text, c.offset = offset ∧ d.offset = stop ∧
        (pattern.root.ends c).head? = some d := by
  constructor
  · intro hmatch
    have hplace : (cut? text offset).isSome = true := by
      cases hcut : cut? text offset with
      | none => simp [matchAt_eq_none_of_cut? hcut] at hmatch
      | some _ => rfl
    obtain ⟨c, rfl⟩ := Cursor.isSome_cut?_iff.mp hplace
    rw [matchAt_offset] at hmatch
    obtain ⟨d, hhead, hstop⟩ := Option.map_eq_some_iff.mp hmatch
    exact ⟨c, d, rfl, hstop, hhead⟩
  · rintro ⟨c, d, rfl, rfl, hhead⟩
    rw [matchAt_offset, hhead]
    rfl

/-- A match ends at a boundary, and not before it starts. -/
theorem bounds_of_matchAt (hmatch : pattern.matchAt text offset = some stop) :
    offset ≤ stop ∧ stop ≤ utf8Length text ∧ (cut? text stop).isSome = true := by
  obtain ⟨c, d, rfl, rfl, hhead⟩ := matchAt_eq_some_iff.mp hmatch
  have hle : c ≤ d := pattern.root.steps.forward c d (List.mem_of_mem_head? hhead)
  exact ⟨hle, d.offset_le_utf8Length, d.isSome_cut?_offset⟩

theorem find_eq_some_iff_matchAt {start : Nat} :
    pattern.find text = some ⟨start, stop⟩ ↔
      (cut? text start).isSome = true ∧ pattern.matchAt text start = some stop ∧
        ∀ earlier < start, (cut? text earlier).isSome = true →
          pattern.matchAt text earlier = none := by
  rw [find_eq_some_iff]
  constructor
  · rintro ⟨c, d, hhead, hbefore, hspan⟩
    obtain ⟨rfl, rfl⟩ := Span.mk.inj hspan
    refine ⟨c.isSome_cut?_offset, matchAt_eq_some_iff.mpr ⟨c, d, rfl, rfl, hhead⟩, ?_⟩
    intro earlier hlt hplace
    obtain ⟨e, rfl⟩ := Cursor.isSome_cut?_iff.mp hplace
    exact matchAt_offset_eq_none_iff.mpr (hbefore e hlt)
  · rintro ⟨-, hmatch, hbefore⟩
    obtain ⟨c, d, rfl, rfl, hhead⟩ := matchAt_eq_some_iff.mp hmatch
    refine ⟨c, d, hhead, ?_, rfl⟩
    intro e hlt
    exact matchAt_offset_eq_none_iff.mp (hbefore e.offset hlt e.isSome_cut?_offset)

theorem find_eq_none_iff_matchAt :
    pattern.find text = none ↔
      ∀ offset, (cut? text offset).isSome = true → pattern.matchAt text offset = none := by
  rw [find_eq_none_iff]
  constructor
  · intro hnone offset hplace
    obtain ⟨c, rfl⟩ := Cursor.isSome_cut?_iff.mp hplace
    exact matchAt_offset_eq_none_iff.mpr (hnone c)
  · intro hnone c
    exact matchAt_offset_eq_none_iff.mp (hnone c.offset c.isSome_cut?_offset)

/-- A search finds the match at the leftmost boundary that has one, and nothing only if no boundary
has one.  No match starts anywhere else, and each ends at a boundary of the text that is not before
its start. -/
theorem search_is_leftmost_and_sound (pattern : Pattern) (text : List Char) :
    (∀ start stop, pattern.find text = some ⟨start, stop⟩ ↔
      (cut? text start).isSome = true ∧ pattern.matchAt text start = some stop ∧
        ∀ earlier < start, (cut? text earlier).isSome = true →
          pattern.matchAt text earlier = none) ∧
    (pattern.find text = none ↔
      ∀ offset, (cut? text offset).isSome = true → pattern.matchAt text offset = none) ∧
    ∀ offset,
      (cut? text offset = none → pattern.matchAt text offset = none) ∧
      ∀ stop, pattern.matchAt text offset = some stop →
        offset ≤ stop ∧ stop ≤ utf8Length text ∧ (cut? text stop).isSome = true :=
  ⟨fun _ _ => find_eq_some_iff_matchAt, find_eq_none_iff_matchAt,
    fun _ => ⟨matchAt_eq_none_of_cut?, fun _ => bounds_of_matchAt⟩⟩

end Pattern

end EmojiPatterns
