import EmojiPatterns.Pattern
import EmojiPatterns.Proofs.OrderedMatching

/-!
# What patterns read off ordered ends

The three ways of matching a pattern look at nothing but the ordered ends of its tree: a match at
an offset ends at the first of them, a search takes the first place from which there are any, and a
whole text matches if the text's end is among those from its start.  So patterns whose trees have
the same ends cannot be told apart (`Pattern.alike_of_ends`).
-/

namespace EmojiPatterns.Pattern

variable {text : List Char}

theorem endFrom?_eq_head? (pattern : Pattern) (c : Cursor text) :
    pattern.endFrom? c = (pattern.root.ends c).head? := by
  rw [endFrom?, Node.findSome?_eq_findSome?_reached, pattern.root.sameFirst_reached c]
  cases pattern.root.ends c <;> rfl

theorem endFrom?_eq_none_iff {pattern : Pattern} {c : Cursor text} :
    pattern.endFrom? c = none ↔ pattern.root.ends c = [] := by
  rw [endFrom?_eq_head?, List.head?_eq_none_iff]

theorem matchAt_offset (pattern : Pattern) (c : Cursor text) :
    pattern.matchAt text c.offset = (pattern.root.ends c).head?.map (·.offset) := by
  rw [matchAt, Cursor.at?_offset, Option.bind_some, endFrom?_eq_head?]

/-- A whole text matches if one of the ends from its start is its end. -/
theorem isFullMatch_iff {pattern : Pattern} :
    pattern.isFullMatch text = true ↔
      ∃ d ∈ pattern.root.ends (Cursor.start text), d.offset = utf8Length text := by
  rw [isFullMatch, Node.findSome?_eq_findSome?_reached,
    pattern.root.sameFirst_reached (Cursor.start text), List.findSome?_isSome_iff]
  constructor
  · intro hends
    obtain ⟨d, hmem, hsome⟩ := hends
    by_cases hend : d.AtEnd
    · exact ⟨d, hmem, Cursor.atEnd_iff_offset.mp hend⟩
    · simp [if_neg hend] at hsome
  · intro hends
    obtain ⟨d, hmem, hoffset⟩ := hends
    refine ⟨d, hmem, ?_⟩
    simp [Cursor.atEnd_iff_offset.mpr hoffset]

/-- A search fails if there are no ends from any place. -/
theorem find_eq_none_iff {pattern : Pattern} :
    pattern.find text = none ↔ ∀ c : Cursor text, pattern.root.ends c = [] := by
  rw [find, Cursor.findSome?_eq_none_iff]
  constructor
  · intro hnone c
    have hstart := hnone c (Cursor.start_le c)
    rw [Option.map_eq_none_iff] at hstart
    exact endFrom?_eq_none_iff.mp hstart
  · intro hnone c _
    rw [endFrom?_eq_none_iff.mpr (hnone c)]
    rfl

/-- A search finds the first end from the first place from which there is one. -/
theorem find_eq_some_iff {pattern : Pattern} {span : Span} :
    pattern.find text = some span ↔
      ∃ c d : Cursor text, (pattern.root.ends c).head? = some d ∧
        (∀ e : Cursor text, e < c → pattern.root.ends e = []) ∧ span = ⟨c.offset, d.offset⟩ := by
  rw [find, Cursor.findSome?_eq_some_iff]
  constructor
  · intro hsearch
    obtain ⟨c, -, hfound, hbefore⟩ := hsearch
    obtain ⟨d, hend, hspan⟩ := Option.map_eq_some_iff.mp hfound
    refine ⟨c, d, (endFrom?_eq_head? pattern c).symm.trans hend, ?_, hspan.symm⟩
    intro e hlt
    have hnone := hbefore e (Cursor.start_le e) hlt
    rw [Option.map_eq_none_iff] at hnone
    exact endFrom?_eq_none_iff.mp hnone
  · intro hends
    obtain ⟨c, d, hend, hbefore, rfl⟩ := hends
    refine ⟨c, Cursor.start_le c, ?_, ?_⟩
    · rw [endFrom?_eq_head?, hend]
      rfl
    · intro e _ hlt
      rw [endFrom?_eq_none_iff.mpr (hbefore e hlt)]
      rfl

/-- Two patterns that no match can tell apart. -/
def Alike (left right : Pattern) : Prop :=
  ∀ text : List Char, (∀ offset, left.matchAt text offset = right.matchAt text offset) ∧
    left.find text = right.find text ∧ left.isFullMatch text = right.isFullMatch text

theorem alike_of_ends {left right : Pattern}
    (hends : ∀ (text : List Char) (c : Cursor text), left.root.ends c = right.root.ends c) :
    left.Alike right := by
  intro text
  have hend : ∀ c : Cursor text, left.endFrom? c = right.endFrom? c := by
    intro c
    rw [endFrom?_eq_head?, endFrom?_eq_head?, hends]
  refine ⟨?_, ?_, ?_⟩
  · intro offset
    rw [matchAt, matchAt, funext hend]
  · simp only [find, hend]
  · rw [Bool.eq_iff_iff, isFullMatch_iff, isFullMatch_iff, hends]

end EmojiPatterns.Pattern
