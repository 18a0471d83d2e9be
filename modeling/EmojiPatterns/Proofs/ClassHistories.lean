import EmojiPatterns.Proofs.RangeSplices

/-!
# How classes come about

A class is empty at first, or merged from ranges or characters, and then ranges are spliced into
it.  However that goes, the class is in canonical form, and so it does not remember in which order
or in which portions its ranges were given.  Main statement: `CharClass.classes_are_canonical`.
-/

namespace EmojiPatterns.CharClass

/-- The classes that can come about, with all ranges that were given for them so far. -/
inductive Built : CharClass → List CharRange → Prop where
  | empty : Built .empty []
  | merge (ranges : List CharRange) : Built (.merge ranges) ranges
  | mergeChars (chars : List Char) : Built (.mergeChars chars) (chars.map fun c => ⟨c, c⟩)
  | splice {cls : CharClass} {given : List CharRange} (hbuilt : Built cls given)
      (range : CharRange) : Built (cls.splice range) (given ++ [range])

theorem mergeChars_eq_ofChars (chars : List Char) : mergeChars chars = ofChars chars :=
  merge_eq_ofRanges _

namespace Built

variable {cls : CharClass} {given : List CharRange}

theorem canonical (hbuilt : Built cls given) : cls.Canonical := by
  induction hbuilt with
  | empty => exact canonical_empty
  | merge ranges => exact merge_eq_ofRanges ranges ▸ canonical_ofRanges ranges
  | mergeChars chars => exact mergeChars_eq_ofChars chars ▸ canonical_ofRanges _
  | splice _ range ih => exact ih.splice_eq_insert range ▸ ih.insert range

theorem contains_iff (hbuilt : Built cls given) {c : Char} :
    cls.contains c = true ↔ ∃ range ∈ given, range.lo ≤ c ∧ c ≤ range.hi := by
  have hmember : cls.contains c = true ↔ ∃ range ∈ given, range.contains c = true := by
    induction hbuilt with
    | empty => simp [CharClass.contains, CharClass.empty]
    | merge ranges =>
      rw [merge_eq_ofRanges]
      exact contains_ofRanges_iff
    | mergeChars chars =>
      rw [mergeChars_eq_ofChars]
      exact contains_ofRanges_iff
    | @splice cls given hbuilt range ih =>
      rw [hbuilt.canonical.splice_eq_insert, contains_insert_iff, ih]
      simp only [List.mem_append, List.mem_singleton, or_and_right, exists_or, exists_eq_left]
      exact or_comm
  simpa [CharRange.contains] using hmember

theorem lookUp_iff (hbuilt : Built cls given) {c : Char} :
    cls.lookUp c = true ↔ ∃ range ∈ given, range.lo ≤ c ∧ c ≤ range.hi := by
  rw [hbuilt.canonical.lookUp_eq_contains, hbuilt.contains_iff]

theorem foldl_splice (hbuilt : Built cls given) (ranges : List CharRange) :
    Built (ranges.foldl CharClass.splice cls) (given ++ ranges) := by
  induction ranges generalizing cls given with
  | nil => simpa using hbuilt
  | cons range rest ih => simpa using ih (hbuilt.splice range)

theorem foldl_insert (hbuilt : Built cls given) (ranges : List CharRange) :
    Built (ranges.foldl CharClass.insert cls) (given ++ ranges) := by
  induction ranges generalizing cls given with
  | nil => simpa using hbuilt
  | cons range rest ih =>
    have hinsert := hbuilt.splice range
    rw [hbuilt.canonical.splice_eq_insert] at hinsert
    simpa using ih hinsert

end Built

/-- Every class is in canonical form and has just the characters of the ranges that were given for
it, in whatever order and portions they were given: those of a range are found by halving, and
listed in ascending order.  Splicing and merging make the same classes as inserting. -/
theorem classes_are_canonical :
    (∀ cls given, Built cls given →
      cls.Canonical ∧
      (∀ c, cls.lookUp c = true ↔ ∃ range ∈ given, range.lo ≤ c ∧ c ≤ range.hi) ∧
      (∀ c, c ∈ cls.chars ↔ ∃ range ∈ given, range.lo ≤ c ∧ c ≤ range.hi) ∧
      cls.chars.Pairwise (· < ·) ∧
      (cls.isEmpty = true ↔ ∀ c, ¬ ∃ range ∈ given, range.lo ≤ c ∧ c ≤ range.hi)) ∧
    (∀ left right, (∃ given, Built left given) → (∃ given, Built right given) →
      (left = right ↔ ∀ c, left.lookUp c = right.lookUp c)) ∧
    (∀ ranges pushed : List CharRange, pushed.Perm ranges →
      pushed.foldl splice empty = merge ranges) ∧
    (∀ cls given, Built cls given →
      (∀ range, cls.splice range = cls.insert range) ∧ ∀ c, cls.lookUp c = cls.contains c) ∧
    (∀ ranges, merge ranges = ofRanges ranges) ∧
    ∀ chars, mergeChars chars = ofChars chars := by
  refine ⟨?form, ?equality, ?order, ?insert, merge_eq_ofRanges, mergeChars_eq_ofChars⟩
  case form =>
    intro cls given hbuilt
    refine ⟨hbuilt.canonical, fun _ => hbuilt.lookUp_iff, ?_,
      hbuilt.canonical.pairwise_lt_chars, ?_⟩
    · intro c
      rw [mem_chars_iff, hbuilt.contains_iff]
    · simp only [hbuilt.canonical.isEmpty_iff, ← hbuilt.contains_iff, Bool.not_eq_true]
  case equality =>
    rintro left right ⟨_, hleft⟩ ⟨_, hright⟩
    constructor
    · rintro rfl c
      rfl
    · intro hsame
      apply hleft.canonical.eq_of_contains_iff hright.canonical
      intro c
      rw [← hleft.canonical.lookUp_eq_contains, ← hright.canonical.lookUp_eq_contains, hsame c]
  case order =>
    intro ranges pushed hperm
    have hpushed : Built (pushed.foldl CharClass.splice .empty) pushed :=
      Built.empty.foldl_splice pushed
    apply hpushed.canonical.eq_of_contains_iff (Built.merge ranges).canonical
    intro c
    rw [hpushed.contains_iff, (Built.merge ranges).contains_iff]
    simp only [hperm.mem_iff]
  case insert =>
    intro cls given hbuilt
    exact ⟨hbuilt.canonical.splice_eq_insert, hbuilt.canonical.lookUp_eq_contains⟩

/-- The last character before the surrogates and the first one after them are neighbours. -/
theorem classes_are_canonical_surrogates :
    (empty.splice ⟨'\ue000', '\ue001'⟩).splice ⟨'\ud7ff', '\ud7ff'⟩ =
        ⟨[⟨'\ud7ff', '\ue001'⟩]⟩ ∧
      ((empty.splice ⟨'\ue000', '\ue001'⟩).splice ⟨'\ud7ff', '\ud7ff'⟩).Canonical :=
  ⟨by cbv, (classes_are_canonical.1 _ _ ((Built.empty.splice _).splice _)).1⟩

end EmojiPatterns.CharClass
