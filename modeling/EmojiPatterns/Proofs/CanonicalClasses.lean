import EmojiPatterns.Proofs.ClassMembers
import Mathlib.Data.List.Basic

/-!
# One form for each set of characters

The ranges of a class ascend and leave a character out between any two neighbours.  Such ranges are
determined by their members: the first starts at the least member and ends before the least
character that is no member.  Main statements: `CharClass.Canonical.insert`,
`CharClass.Canonical.eq_of_contains_iff`.
-/

namespace EmojiPatterns

theorem exists_rank_eq {n : Nat} (hn : n < Char.numCodePoints) : ∃ c : Char, rank c = n :=
  ⟨Char.ofOrdinal ⟨n, hn⟩, by rw [rank, Char.ordinal_ofOrdinal]⟩

namespace CharRange

variable {range left right : CharRange}

theorem proper_iff : range.Proper ↔ range.lo ≤ range.hi :=
  le_iff_rank_le.symm

theorem contains_lo (hrange : range.Proper) : range.contains range.lo = true :=
  contains_iff.mpr ⟨Nat.le_refl _, hrange⟩

theorem ext_rank (hlo : rank left.lo = rank right.lo) (hhi : rank left.hi = rank right.hi) :
    left = right := by
  rw [rank_inj] at hlo hhi
  cases left
  cases right
  rw [CharRange.mk.injEq]
  exact ⟨hlo, hhi⟩

/-- Two ranges are apart if a character lies between them. -/
theorem isApart_iff_exists :
    left.isApart right = true ↔ ∃ c, left.hi < c ∧ c < right.lo := by
  simp only [isApart_iff, lt_iff_rank_lt]
  constructor
  · intro hapart
    have hnext : rank left.hi + 1 < Char.numCodePoints :=
      Nat.lt_trans hapart right.lo.ordinal.isLt
    obtain ⟨c, hc⟩ := exists_rank_eq hnext
    exact ⟨c, by omega, by omega⟩
  · intro hbetween
    obtain ⟨c, hleft, hright⟩ := hbetween
    omega

theorem isApart_trans {mid : CharRange} (hmid : mid.Proper) (hleft : left.isApart mid = true)
    (hright : mid.isApart right = true) : left.isApart right = true := by
  rw [isApart_iff] at hleft hright ⊢
  have hle : rank mid.lo ≤ rank mid.hi := hmid
  omega

/-! ### Characters of a range -/

theorem mem_chars_iff {c : Char} : c ∈ range.chars ↔ range.contains c = true := by
  have hcode : c ∈ range.chars ↔ range.lo.toNat ≤ c.toNat ∧ c.toNat ≤ range.hi.toNat := by
    simp only [chars, List.mem_filterMap, List.mem_range'_1, Unicode.scalar?_eq_some_iff]
    constructor
    · rintro ⟨n, hn, rfl⟩
      omega
    · intro hc
      exact ⟨c.toNat, by omega, rfl⟩
  rw [hcode, contains, Bool.and_eq_true, decide_eq_true_eq, decide_eq_true_eq]
  exact Iff.rfl

theorem pairwise_lt_chars (range : CharRange) : range.chars.Pairwise (· < ·) := by
  have hascending : (List.range' range.lo.toNat (range.hi.toNat + 1 - range.lo.toNat)).Pairwise
      (· < ·) := List.pairwise_lt_range'
  apply hascending.filterMap
  intro m n hlt c hc d hd
  have hcode : c.toNat < d.toNat := by
    rw [Unicode.scalar?_eq_some_iff.mp hc, Unicode.scalar?_eq_some_iff.mp hd]
    exact hlt
  exact hcode

end CharRange

namespace CharClass

/-! ### The canonical form -/

/-- Every range has a character, and between a range and a later one there is a character that is in
neither. -/
structure Canonical (cls : CharClass) : Prop where
  proper : ∀ range ∈ cls.ranges, range.lo ≤ range.hi
  separate : cls.ranges.Pairwise fun left right => ∃ c, left.hi < c ∧ c < right.lo

theorem canonical_iff {cls : CharClass} :
    cls.Canonical ↔ cls.Proper ∧
      cls.ranges.Pairwise fun left right => left.isApart right = true := by
  simp only [Proper, CharRange.proper_iff, CharRange.isApart_iff_exists]
  constructor
  · intro hcanonical
    exact ⟨hcanonical.proper, hcanonical.separate⟩
  · intro hcanonical
    exact ⟨hcanonical.1, hcanonical.2⟩

theorem canonical_empty : empty.Canonical :=
  ⟨fun _ hmem => absurd hmem List.not_mem_nil, .nil⟩

/-- What is apart from the placed range and from all others is apart from what they become. -/
theorem isApart_of_mem_place {first range other : CharRange} {ranges : List CharRange}
    (hrange : first.isApart range = true) (hranges : ∀ head ∈ ranges, first.isApart head = true)
    (hmem : other ∈ place range ranges) : first.isApart other = true := by
  fun_induction place range ranges with
  | case1 range => exact List.mem_singleton.mp hmem ▸ hrange
  | case2 range head rest hbefore ih =>
    obtain ⟨hhead, hrest⟩ := List.forall_mem_cons.mp hranges
    rcases List.mem_cons.mp hmem with rfl | hmem
    · exact hhead
    · exact ih hrange hrest hmem
  | case3 range head rest hbefore hafter =>
    rcases List.mem_cons.mp hmem with rfl | hmem
    · exact hrange
    · exact hranges other hmem
  | case4 range head rest hbefore hafter ih =>
    obtain ⟨hhead, hrest⟩ := List.forall_mem_cons.mp hranges
    have hjoin : first.isApart (head.join range) = true := by
      rw [CharRange.isApart_iff] at hrange hhead ⊢
      rw [CharRange.rank_join_lo]
      omega
    exact ih hjoin hrest hmem

theorem pairwise_place {range : CharRange} {ranges : List CharRange}
    (hranges : ∀ other ∈ ranges, other.Proper)
    (hapart : ranges.Pairwise fun left right => left.isApart right = true) :
    (place range ranges).Pairwise fun left right => left.isApart right = true := by
  fun_induction place range ranges with
  | case1 range => exact List.pairwise_singleton _ _
  | case2 range head rest hbefore ih =>
    obtain ⟨hhead, hrest⟩ := List.pairwise_cons.mp hapart
    refine List.pairwise_cons.mpr ⟨?_, ih (List.forall_mem_cons.mp hranges).2 hrest⟩
    intro other hmem
    exact isApart_of_mem_place hbefore hhead hmem
  | case3 range head rest hbefore hafter =>
    refine List.pairwise_cons.mpr ⟨?_, hapart⟩
    intro other hmem
    rcases List.mem_cons.mp hmem with rfl | hmem
    · exact hafter
    · exact CharRange.isApart_trans (hranges head List.mem_cons_self) hafter
        ((List.pairwise_cons.mp hapart).1 other hmem)
  | case4 range head rest hbefore hafter ih =>
    exact ih (List.forall_mem_cons.mp hranges).2 (List.pairwise_cons.mp hapart).2

theorem Canonical.insert {cls : CharClass} (hcls : cls.Canonical) (range : CharRange) :
    (cls.insert range).Canonical := by
  obtain ⟨hproper, hapart⟩ := canonical_iff.mp hcls
  refine canonical_iff.mpr ⟨proper_insert range hproper, ?_⟩
  unfold CharClass.insert
  split
  · exact hapart
  · exact pairwise_place hproper hapart

theorem canonical_ofRanges (ranges : List CharRange) : (ofRanges ranges).Canonical := by
  unfold ofRanges
  induction ranges.mergeSort fun left right => left.lo ≤ right.lo with
  | nil => exact canonical_empty
  | cons range rest ih => exact ih.insert range

/-! ### Members determine the ranges -/

section

variable {head other : CharRange} {rest more : List CharRange}

/-- The members of the ranges after the first are the members beyond the first. -/
theorem exists_mem_tail_iff
    (hapart : (head :: rest).Pairwise fun left right => left.isApart right = true) {c : Char} :
    (∃ range ∈ rest, range.contains c = true) ↔
      (∃ range ∈ head :: rest, range.contains c = true) ∧ rank head.hi < rank c := by
  constructor
  · intro hmember
    obtain ⟨range, hmem, hcontains⟩ := hmember
    have hgap := CharRange.isApart_iff.mp ((List.pairwise_cons.mp hapart).1 range hmem)
    have hlo := (CharRange.contains_iff.mp hcontains).1
    exact ⟨⟨range, List.mem_cons_of_mem head hmem, hcontains⟩, by omega⟩
  · intro hmember
    obtain ⟨⟨range, hmem, hcontains⟩, hbeyond⟩ := hmember
    rcases List.mem_cons.mp hmem with rfl | hmem
    · have hhi := (CharRange.contains_iff.mp hcontains).2
      omega
    · exact ⟨range, hmem, hcontains⟩

theorem rank_lo_le_of_contains (hproper : ∀ range ∈ head :: rest, range.Proper)
    (hapart : (head :: rest).Pairwise fun left right => left.isApart right = true) {c : Char}
    (hmember : ∃ range ∈ head :: rest, range.contains c = true) : rank head.lo ≤ rank c := by
  have hhead : rank head.lo ≤ rank head.hi := hproper head List.mem_cons_self
  by_cases hbeyond : rank head.hi < rank c
  · omega
  · obtain ⟨range, hmem, hcontains⟩ := hmember
    rcases List.mem_cons.mp hmem with rfl | hmem
    · exact (CharRange.contains_iff.mp hcontains).1
    · have htail := (exists_mem_tail_iff hapart).mp ⟨range, hmem, hcontains⟩
      exact absurd htail.2 hbeyond

/-- Where one class holds all members of another and both start alike, its first range does not end
earlier: the character behind that range would be missing. -/
theorem rank_hi_le_of_contains (hhead : head.Proper)
    (hapart : (head :: rest).Pairwise fun left right => left.isApart right = true)
    (hlo : rank head.lo = rank other.lo) (hmembers : ∀ c, other.contains c = true →
      ∃ range ∈ head :: rest, range.contains c = true) : rank other.hi ≤ rank head.hi := by
  by_contra hlonger
  have hproper : rank head.lo ≤ rank head.hi := hhead
  have hnext : rank head.hi + 1 < Char.numCodePoints := by
    have hlast : rank other.hi < Char.numCodePoints := other.hi.ordinal.isLt
    omega
  obtain ⟨c, hc⟩ := exists_rank_eq hnext
  obtain ⟨range, hmem, hcontains⟩ :=
    hmembers c (CharRange.contains_iff.mpr ⟨by omega, by omega⟩)
  rw [CharRange.contains_iff] at hcontains
  rcases List.mem_cons.mp hmem with rfl | hmem
  · omega
  · have hgap := CharRange.isApart_iff.mp ((List.pairwise_cons.mp hapart).1 range hmem)
    omega

end

theorem eq_of_exists_mem_iff {left right : List CharRange}
    (hleft : ∀ range ∈ left, range.Proper) (hright : ∀ range ∈ right, range.Proper)
    (hleftApart : left.Pairwise fun first second => first.isApart second = true)
    (hrightApart : right.Pairwise fun first second => first.isApart second = true)
    (hsame : ∀ c, (∃ range ∈ left, range.contains c = true) ↔
      ∃ range ∈ right, range.contains c = true) : left = right := by
  induction left generalizing right with
  | nil =>
    cases right with
    | nil => rfl
    | cons other more =>
      have hmember := (hsame other.lo).mpr ⟨other, List.mem_cons_self,
        CharRange.contains_lo (hright other List.mem_cons_self)⟩
      simp at hmember
  | cons head rest ih =>
    cases right with
    | nil =>
      have hmember := (hsame head.lo).mp ⟨head, List.mem_cons_self,
        CharRange.contains_lo (hleft head List.mem_cons_self)⟩
      simp at hmember
    | cons other more =>
      have hhead := hleft head List.mem_cons_self
      have hother := hright other List.mem_cons_self
      have hlo : rank head.lo = rank other.lo := by
        apply Nat.le_antisymm
        · exact rank_lo_le_of_contains hleft hleftApart ((hsame other.lo).mpr
            ⟨other, List.mem_cons_self, CharRange.contains_lo hother⟩)
        · exact rank_lo_le_of_contains hright hrightApart ((hsame head.lo).mp
            ⟨head, List.mem_cons_self, CharRange.contains_lo hhead⟩)
      have hhi : rank head.hi = rank other.hi := by
        apply Nat.le_antisymm
        · exact rank_hi_le_of_contains hother hrightApart hlo.symm fun c hcontains =>
            (hsame c).mp ⟨head, List.mem_cons_self, hcontains⟩
        · exact rank_hi_le_of_contains hhead hleftApart hlo fun c hcontains =>
            (hsame c).mpr ⟨other, List.mem_cons_self, hcontains⟩
      obtain rfl : head = other := CharRange.ext_rank hlo hhi
      have hrest : rest = more := by
        apply ih (List.forall_mem_cons.mp hleft).2 (List.forall_mem_cons.mp hright).2
          (List.pairwise_cons.mp hleftApart).2 (List.pairwise_cons.mp hrightApart).2
        intro c
        rw [exists_mem_tail_iff hleftApart, exists_mem_tail_iff hrightApart, hsame c]
      rw [hrest]

/-- Canonical classes with the same members are the same class. -/
theorem Canonical.eq_of_contains_iff {left right : CharClass} (hleft : left.Canonical)
    (hright : right.Canonical)
    (hsame : ∀ c, left.contains c = true ↔ right.contains c = true) : left = right := by
  obtain ⟨hleftProper, hleftApart⟩ := canonical_iff.mp hleft
  obtain ⟨hrightProper, hrightApart⟩ := canonical_iff.mp hright
  have hranges : left.ranges = right.ranges := by
    apply eq_of_exists_mem_iff hleftProper hrightProper hleftApart hrightApart
    simpa only [contains_iff] using hsame
  cases left
  cases right
  exact congrArg CharClass.mk hranges

/-! ### Looking up and listing -/

theorem any_contains_eq_find? {ranges : List CharRange}
    (hapart : ranges.Pairwise fun left right => left.isApart right = true) (c : Char) :
    ranges.any (fun range => range.contains c) =
      (ranges.find? fun range => c ≤ range.hi).any fun range => range.lo ≤ c := by
  induction ranges with
  | nil => rfl
  | cons head rest ih =>
    obtain ⟨hhead, hrest⟩ := List.pairwise_cons.mp hapart
    by_cases hhi : c ≤ head.hi
    · have hnone : rest.any (fun range => range.contains c) = false := by
        rw [List.any_eq_false]
        intro range hmem hcontains
        have hgap := CharRange.isApart_iff.mp (hhead range hmem)
        have hlo := (CharRange.contains_iff.mp hcontains).1
        rw [le_iff_rank_le] at hhi
        omega
      rw [List.any_cons, hnone, List.find?_cons_of_pos (by simpa using hhi)]
      simp [CharRange.contains, hhi]
    · rw [List.any_cons, ih hrest, List.find?_cons_of_neg (by simpa using hhi)]
      simp [CharRange.contains, hhi]

namespace Canonical

variable {cls : CharClass}

/-- Only the first range that does not end before a character can hold it. -/
theorem contains_eq_find? (hcls : cls.Canonical) (c : Char) :
    cls.contains c =
      (cls.ranges.find? fun range => c ≤ range.hi).any fun range => range.lo ≤ c :=
  any_contains_eq_find? (canonical_iff.mp hcls).2 c

theorem pairwise_lt_chars (hcls : cls.Canonical) : cls.chars.Pairwise (· < ·) := by
  rw [chars, List.pairwise_flatMap]
  refine ⟨fun range _ => range.pairwise_lt_chars, ?_⟩
  apply hcls.separate.imp
  intro left right hbetween c hc d hd
  obtain ⟨x, hleft, hright⟩ := hbetween
  have hlast := (CharRange.contains_iff.mp (CharRange.mem_chars_iff.mp hc)).2
  have hfirst := (CharRange.contains_iff.mp (CharRange.mem_chars_iff.mp hd)).1
  rw [lt_iff_rank_lt] at hleft hright ⊢
  omega

theorem isEmpty_iff (hcls : cls.Canonical) :
    cls.isEmpty = true ↔ ∀ c, cls.contains c = false := by
  obtain ⟨hproper, -⟩ := canonical_iff.mp hcls
  rw [isEmpty, List.isEmpty_iff]
  constructor
  · intro hnil c
    simp [contains, hnil]
  · intro hnone
    apply List.eq_nil_iff_forall_not_mem.mpr
    intro range hmem
    have hlo := contains_iff.mpr ⟨range, hmem, CharRange.contains_lo (hproper range hmem)⟩
    simp [hnone] at hlo

end Canonical

theorem mem_chars_iff {cls : CharClass} {c : Char} : c ∈ cls.chars ↔ cls.contains c = true := by
  simp only [chars, List.mem_flatMap, CharRange.mem_chars_iff, contains_iff]

end CharClass

end EmojiPatterns
