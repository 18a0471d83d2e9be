import EmojiPatterns.CharClass

/-!
# Members of classes

The ranges of a class are joined where they touch, and the surrogates count as no gap.  Seen
through the ranks of characters among all characters, two ranges are apart exactly if there is a
rank between them, so joining keeps the members.  Main statement: `CharClass.contains_ofChars_iff`.
-/

namespace EmojiPatterns

/-- The rank of a character among all characters. -/
def rank (c : Char) : Nat :=
  c.ordinal.val

theorem le_iff_rank_le {c d : Char} : c ≤ d ↔ rank c ≤ rank d :=
  Char.le_iff_ordinal_le

theorem lt_iff_rank_lt {c d : Char} : c < d ↔ rank c < rank d :=
  Char.lt_iff_ordinal_lt

theorem rank_inj {c d : Char} : rank c = rank d ↔ c = d := by
  rw [← Char.ordinal_inj, Fin.ext_iff]
  rfl

/-- The character after another is the one of the next rank, also across the surrogates. -/
theorem succ?_eq_some_iff {c d : Char} : c.succ? = some d ↔ rank d = rank c + 1 := by
  have hrank : rank d < Char.numCodePoints := d.ordinal.isLt
  have hsucc : c.succ? = some d ↔ c.ordinal.addNat? 1 = some d.ordinal := by
    rw [← Char.map_ordinal_succ?, Option.map_eq_some_iff]
    constructor
    · intro hsome
      exact ⟨d, hsome, rfl⟩
    · intro hmapped
      obtain ⟨e, hsome, hordinal⟩ := hmapped
      rw [hsome, Char.ordinal_inj.mp hordinal]
  rw [hsucc, Fin.addNat?_eq_dif]
  split
  · rw [Option.some.injEq, Fin.ext_iff]
    exact eq_comm
  · next hlast =>
    apply iff_of_false nofun
    intro hnext
    apply hlast
    rw [hnext] at hrank
    exact hrank

namespace CharRange

/-- Whether there is a character in the range. -/
def Proper (range : CharRange) : Prop :=
  rank range.lo ≤ rank range.hi

theorem contains_iff {range : CharRange} {c : Char} :
    range.contains c = true ↔ rank range.lo ≤ rank c ∧ rank c ≤ rank range.hi := by
  rw [contains, Bool.and_eq_true, decide_eq_true_eq, decide_eq_true_eq, le_iff_rank_le,
    le_iff_rank_le]

theorem isEmpty_eq_false_iff {range : CharRange} : range.isEmpty = false ↔ range.Proper := by
  rw [isEmpty, decide_eq_false_iff_not, lt_iff_rank_lt, Nat.not_lt, Proper]

theorem isApart_iff {left right : CharRange} :
    left.isApart right = true ↔ rank left.hi + 1 < rank right.lo := by
  rw [isApart, Bool.and_eq_true, decide_eq_true_eq, lt_iff_rank_lt, bne_iff_ne, ne_eq,
    succ?_eq_some_iff]
  omega

theorem rank_join_lo (left right : CharRange) :
    rank (left.join right).lo = min (rank left.lo) (rank right.lo) := by
  simp only [join, le_iff_rank_le]
  split <;> omega

theorem rank_join_hi (left right : CharRange) :
    rank (left.join right).hi = max (rank left.hi) (rank right.hi) := by
  simp only [join, le_iff_rank_le]
  split <;> omega

variable {left right : CharRange}

theorem Proper.join (hright : right.Proper) (left : CharRange) : (left.join right).Proper := by
  rw [Proper] at hright ⊢
  rw [rank_join_lo, rank_join_hi]
  omega

/-- Ranges of which neither lies apart before the other are joined without a gap. -/
theorem contains_join_iff {c : Char} (hright : right.Proper)
    (hbefore : ¬ left.isApart right = true) (hafter : ¬ right.isApart left = true) :
    (left.join right).contains c = true ↔ left.contains c = true ∨ right.contains c = true := by
  have hle : rank right.lo ≤ rank right.hi := hright
  rw [isApart_iff] at hbefore hafter
  simp only [contains_iff, rank_join_lo, rank_join_hi]
  omega

end CharRange

namespace CharClass

/-- Whether there is a character in each range of a class. -/
def Proper (cls : CharClass) : Prop :=
  ∀ range ∈ cls.ranges, range.Proper

theorem contains_iff {cls : CharClass} {c : Char} :
    cls.contains c = true ↔ ∃ range ∈ cls.ranges, range.contains c = true := by
  rw [contains, List.any_eq_true]

theorem proper_place {range : CharRange} {ranges : List CharRange} (hrange : range.Proper)
    (hranges : ∀ other ∈ ranges, other.Proper) : ∀ other ∈ place range ranges, other.Proper := by
  fun_induction place range ranges with
  | case1 range => simpa using hrange
  | case2 range head rest hbefore ih =>
    obtain ⟨hhead, hrest⟩ := List.forall_mem_cons.mp hranges
    exact List.forall_mem_cons.mpr ⟨hhead, ih hrange hrest⟩
  | case3 range head rest hbefore hafter => exact List.forall_mem_cons.mpr ⟨hrange, hranges⟩
  | case4 range head rest hbefore hafter ih =>
    exact ih (hrange.join head) (List.forall_mem_cons.mp hranges).2

/-- Placing a range among others adds its characters. -/
theorem contains_place_iff {range : CharRange} {ranges : List CharRange} {c : Char}
    (hrange : range.Proper) :
    (∃ other ∈ place range ranges, other.contains c = true) ↔
      range.contains c = true ∨ ∃ other ∈ ranges, other.contains c = true := by
  fun_induction place range ranges with
  | case1 range => simp
  | case2 range head rest hbefore ih =>
    have hih := ih hrange
    simp only [List.mem_cons, exists_eq_or_imp] at hih ⊢
    rw [hih]
    exact or_left_comm
  | case3 range head rest hbefore hafter => simp only [List.mem_cons, exists_eq_or_imp]
  | case4 range head rest hbefore hafter ih =>
    rw [ih (hrange.join head), CharRange.contains_join_iff hrange hbefore hafter, or_assoc]
    simp only [List.mem_cons, exists_eq_or_imp]
    exact or_left_comm

theorem proper_insert {cls : CharClass} (range : CharRange) (hcls : cls.Proper) :
    (cls.insert range).Proper := by
  rw [insert]
  split
  · exact hcls
  · next hrange =>
    exact proper_place (CharRange.isEmpty_eq_false_iff.mp (Bool.not_eq_true _ ▸ hrange)) hcls

/-- Inserting a range adds its characters, if it has any. -/
theorem contains_insert_iff {cls : CharClass} {range : CharRange} {c : Char} :
    (cls.insert range).contains c = true ↔ range.contains c = true ∨ cls.contains c = true := by
  rw [insert]
  split
  · next hempty =>
    have hnone : ¬ range.contains c = true := by
      rw [CharRange.isEmpty, decide_eq_true_eq, lt_iff_rank_lt] at hempty
      rw [CharRange.contains_iff]
      omega
    simp [hnone]
  · next hrange =>
    rw [contains_iff, contains_iff]
    exact contains_place_iff (CharRange.isEmpty_eq_false_iff.mp (Bool.not_eq_true _ ▸ hrange))

/-- Inserting several ranges adds the characters of all of them. -/
theorem contains_foldl_insert_iff {cls : CharClass} {ranges : List CharRange} {c : Char} :
    (ranges.foldl insert cls).contains c = true ↔
      cls.contains c = true ∨ ∃ range ∈ ranges, range.contains c = true := by
  induction ranges generalizing cls with
  | nil => simp
  | cons range rest ih =>
    rw [List.foldl_cons, ih, contains_insert_iff]
    simp only [List.mem_cons, exists_eq_or_imp]
    rw [or_comm (a := range.contains c = true), or_assoc]

/-- Either class adds its characters to a union. -/
theorem contains_union_iff {left right : CharClass} {c : Char} :
    (left.union right).contains c = true ↔ left.contains c = true ∨ right.contains c = true := by
  rw [union, contains_foldl_insert_iff, ← contains_iff]

/-- The class of several ranges has the characters of all of them. -/
theorem contains_ofRanges_iff {ranges : List CharRange} {c : Char} :
    (ofRanges ranges).contains c = true ↔ ∃ range ∈ ranges, range.contains c = true := by
  have hinserted : ∀ sorted : List CharRange,
      (sorted.foldr (fun range cls => cls.insert range) empty).contains c = true ↔
        ∃ range ∈ sorted, range.contains c = true := by
    intro sorted
    induction sorted with
    | nil => simp [contains, empty]
    | cons range rest ih =>
      rw [List.foldr_cons, contains_insert_iff, ih]
      simp only [List.mem_cons, exists_eq_or_imp]
  rw [ofRanges, hinserted]
  simp only [List.mem_mergeSort]

/-- The class of several characters has just these. -/
theorem contains_ofChars_iff {chars : List Char} {c : Char} :
    (ofChars chars).contains c = true ↔ c ∈ chars := by
  rw [ofChars, contains_ofRanges_iff]
  constructor
  · intro hrange
    obtain ⟨range, hmem, hcontains⟩ := hrange
    obtain ⟨d, hd, rfl⟩ := List.mem_map.mp hmem
    obtain ⟨hlo, hhi⟩ := CharRange.contains_iff.mp hcontains
    have heq : d = c := rank_inj.mp (Nat.le_antisymm hlo hhi)
    exact heq ▸ hd
  · intro hmem
    have hself : CharRange.contains ⟨c, c⟩ c = true :=
      CharRange.contains_iff.mpr ⟨Nat.le_refl (rank c), Nat.le_refl (rank c)⟩
    exact ⟨⟨c, c⟩, List.mem_map.mpr ⟨c, hmem, rfl⟩, hself⟩

end CharClass

end EmojiPatterns
