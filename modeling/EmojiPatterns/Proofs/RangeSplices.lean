import EmojiPatterns.Proofs.CanonicalClasses
import Mathlib.Data.List.TakeWhile

/-!
# Splicing ranges

A class is changed in place.  Where a new range belongs is found by halving, and one step back is
taken if the range before touches it; then the ranges that it touches are cut out, and one range
that holds them all is put there instead.  Ranges that are given together are sorted, and one after
another is merged into the last one or put behind it.  Ranges that ascend and are apart from one
another become the same in either way as when the new range is placed by going through all of them.
Main statements: `CharClass.Canonical.splice_eq_insert`, `CharClass.merge_eq_ofRanges`,
`CharClass.Canonical.lookUp_eq_contains`.
-/

namespace EmojiPatterns

/-! ### Halving -/

section Halving

variable {α : Type} {test : α → Bool} {items front back : List α}

/-- How many items pass a test, if they are the first ones and their number is one of those from
`base` to `base + size`.  The middle item is tested, and the half that holds the last one to pass is
kept. -/
def narrowPoint (test : α → Bool) (items : List α) (base size : Nat) : Nat :=
  if _hsize : size < 2 then base + if items[base]?.any test then 1 else 0
  else if items[base + size / 2]?.any test then
    narrowPoint test items (base + size / 2) (size - size / 2)
  else narrowPoint test items base (size - size / 2)
termination_by size
decreasing_by all_goals omega

/-- How many items pass a test, if they are the first ones. -/
def partitionPoint (test : α → Bool) (items : List α) : Nat :=
  narrowPoint test items 0 items.length

theorem any_getElem?_append (hfront : ∀ a ∈ front, test a = true)
    (hback : ∀ a ∈ back, test a = false) (index : Nat) :
    (front ++ back)[index]?.any test = true ↔ index < front.length := by
  by_cases hindex : index < front.length
  · rw [List.getElem?_append_left hindex, List.getElem?_eq_getElem hindex]
    simpa [hindex] using hfront _ (List.getElem_mem hindex)
  · rw [List.getElem?_append_right (Nat.not_lt.mp hindex)]
    cases hitem : back[index - front.length]? with
    | none => simp [hindex]
    | some a => simp [hindex, hback a (List.mem_of_getElem? hitem)]

theorem narrowPoint_append (hfront : ∀ a ∈ front, test a = true)
    (hback : ∀ a ∈ back, test a = false) {base size : Nat} (hbase : base ≤ front.length)
    (hlast : front.length ≤ base + size) :
    narrowPoint test (front ++ back) base size = front.length := by
  have hpoint := any_getElem?_append hfront hback
  fun_induction narrowPoint test (front ++ back) base size with
  | case1 base size hsmall =>
    by_cases hpass : (front ++ back)[base]?.any test = true
    · rw [if_pos hpass]
      have hlt := (hpoint base).mp hpass
      omega
    · rw [if_neg hpass]
      have hle := mt (hpoint base).mpr hpass
      omega
  | case2 base size hlarge hpass ih =>
    have hlt := (hpoint _).mp hpass
    exact ih (by omega) (by omega)
  | case3 base size hlarge hpass ih =>
    have hle := mt (hpoint _).mpr hpass
    exact ih hbase (by omega)

section

variable (hitems : items.Pairwise fun left right => test right = true → test left = true)

include hitems

/-- If an item passes only where those before it do, none passes behind the first that pass. -/
theorem eq_false_of_mem_dropWhile : ∀ a ∈ items.dropWhile test, test a = false := by
  induction items with
  | nil => exact List.forall_mem_nil _
  | cons item rest ih =>
    obtain ⟨hitem, hrest⟩ := List.pairwise_cons.mp hitems
    by_cases hpass : test item = true
    · rw [List.dropWhile_cons_of_pos hpass]
      exact ih hrest
    · rw [List.dropWhile_cons_of_neg hpass]
      refine List.forall_mem_cons.mpr ⟨Bool.not_eq_true _ ▸ hpass, ?_⟩
      exact fun a hmem => Bool.not_eq_true _ ▸ mt (hitem a hmem) hpass

theorem partitionPoint_eq : partitionPoint test items = (items.takeWhile test).length := by
  have hlength : (items.takeWhile test).length ≤ 0 + items.length := by
    rw [Nat.zero_add]
    exact (List.takeWhile_prefix test).length_le
  have hpoint := narrowPoint_append (fun _ hmem => List.mem_takeWhile_imp hmem)
    (eq_false_of_mem_dropWhile hitems) (Nat.zero_le _) hlength
  rwa [List.takeWhile_append_dropWhile] at hpoint

end

end Halving

/-- The later of two characters. -/
def later (c d : Char) : Char :=
  if c ≤ d then d else c

theorem rank_later (c d : Char) : rank (later c d) = max (rank c) (rank d) := by
  simp only [later, le_iff_rank_le]
  split <;> omega

/-- The surrogates have no rank. -/
theorem rank_eq (c : Char) :
    rank c = if c.toNat < 0xD800 then c.toNat else c.toNat - 0x800 := by
  rw [rank, Char.ordinal]
  split
  · next hbefore =>
    have hcode : c.toNat < 0xD800 := hbefore
    rw [if_pos hcode]
    rfl
  · next hbehind =>
    have hcode : ¬ c.toNat < 0xD800 := hbehind
    rw [if_neg hcode]
    rfl

namespace CharRange

variable {left right range : CharRange} {c d hi lo : Char}

/-- The character after another one.  The surrogates are passed over. -/
def next? (c : Char) : Option Char :=
  if c = '\ud7ff' then some '\ue000' else Unicode.scalar? (c.toNat + 1)

/-- Whether a range that starts at `lo` overlaps one that ends at `hi` or follows it directly. -/
def touches (hi lo : Char) : Bool :=
  lo ≤ hi || some lo = next? hi

theorem next?_eq_some_iff : next? c = some d ↔ rank d = rank c + 1 := by
  have hc : c.toNat < 0xD800 ∨ 0xDFFF < c.toNat ∧ c.toNat < 0x110000 := c.valid
  have hd : d.toNat < 0xD800 ∨ 0xDFFF < d.toNat ∧ d.toNat < 0x110000 := d.valid
  rw [rank_eq, rank_eq, next?]
  by_cases hlast : c = '\ud7ff'
  · subst hlast
    have hcode : '\ud7ff'.toNat = 0xD7FF := rfl
    have hnext : '\ue000'.toNat = 0xE000 := rfl
    rw [if_pos rfl, Option.some.injEq, ← Char.toNat_inj, hcode, hnext]
    split <;> split <;> omega
  · have hcode : c.toNat ≠ 0xD7FF := fun heq => hlast (Char.toNat_inj.mp heq)
    rw [if_neg hlast, Unicode.scalar?_eq_some_iff]
    split <;> split <;> omega

theorem touches_iff : touches hi lo = true ↔ rank lo ≤ rank hi + 1 := by
  rw [touches, Bool.or_eq_true, decide_eq_true_eq, decide_eq_true_eq, eq_comm,
    next?_eq_some_iff, le_iff_rank_le]
  omega

/-- Only ranges that touch leave no character between them. -/
theorem isApart_iff_not_touches :
    left.isApart right = true ↔ ¬ touches left.hi right.lo = true := by
  rw [isApart_iff, touches_iff, Nat.not_le]

end CharRange

namespace CharClass

variable {range : CharRange} {ranges front : List CharRange} {cls : CharClass}

/-! ### Taking in what is touched -/

/-- A range that takes in those from `index` on as long as it touches them, and the index of the
first that is left. -/
def absorb (ranges : List CharRange) (range : CharRange) (index : Nat) : CharRange × Nat :=
  if _hindex : index < ranges.length then
    if CharRange.touches range.hi ranges[index].lo then
      absorb ranges ⟨range.lo, later range.hi ranges[index].hi⟩ (index + 1)
    else (range, index)
  else (range, index)
termination_by ranges.length - index

/-- Where a range belongs among ascending ones, with the one before it if it touches that. -/
def stepBack (ranges : List CharRange) (range : CharRange) : CharRange × Nat :=
  let point := partitionPoint (fun other => other.lo < range.lo) ranges
  match ranges[point - 1]? with
  | none => (range, point)
  | some before =>
    if 0 < point ∧ CharRange.touches before.hi range.lo then
      (⟨before.lo, later range.hi before.hi⟩, point - 1)
    else (range, point)

/-- Adds the characters of a range to a class.  The ranges from the one where it belongs up to the
first that it does not touch are cut out, and a range that holds them all is put there. -/
def splice (cls : CharClass) (range : CharRange) : CharClass :=
  if range.hi < range.lo then cls
  else
    let (start, first) := stepBack cls.ranges range
    let (whole, stop) := absorb cls.ranges start first
    ⟨(cls.ranges.take first ++ cls.ranges.drop stop).insertIdx first whole⟩

/-- Ranges that are apart before the new one stay as they are. -/
theorem place_append (hfront : ∀ other ∈ front, other.isApart range = true)
    (back : List CharRange) : place range (front ++ back) = front ++ place range back := by
  induction front with
  | nil => rfl
  | cons head rest ih =>
    obtain ⟨hhead, hrest⟩ := List.forall_mem_cons.mp hfront
    rw [List.cons_append, place, if_pos hhead, ih hrest, List.cons_append]

/-- Ranges that are apart before one that starts no later than the new one are apart before the new
one. -/
theorem forall_isApart_of_pairwise {last : CharRange} {back : List CharRange}
    (hapart : (front ++ last :: back).Pairwise fun left right => left.isApart right = true)
    (hle : rank last.lo ≤ rank range.lo) : ∀ other ∈ front, other.isApart range = true := by
  intro other hmem
  have hgap := (List.pairwise_append.mp hapart).2.2 other hmem last List.mem_cons_self
  rw [CharRange.isApart_iff] at hgap ⊢
  omega

/-- A range that does not touch the last one before it is put behind that. -/
theorem place_append_cons {last : CharRange}
    (hfront : ∀ other ∈ front, other.isApart range = true)
    (htouches : ¬ CharRange.touches last.hi range.lo = true) (back : List CharRange) :
    place range (front ++ last :: back) = front ++ last :: place range back := by
  rw [place_append hfront, place, if_pos (CharRange.isApart_iff_not_touches.mpr htouches)]

/-- A range that starts no later than the first one takes it in or is put before it. -/
theorem place_cons_of_le {head : CharRange} (rest : List CharRange) (hhead : head.Proper)
    (hle : rank range.lo ≤ rank head.lo) :
    place range (head :: rest) =
      if CharRange.touches range.hi head.lo then
        place ⟨range.lo, later range.hi head.hi⟩ rest
      else range :: head :: rest := by
  have hbefore : ¬ head.isApart range = true := by
    rw [CharRange.Proper] at hhead
    rw [CharRange.isApart_iff]
    omega
  have hjoin : head.join range = ⟨range.lo, later range.hi head.hi⟩ := by
    apply CharRange.ext_rank
    · rw [CharRange.rank_join_lo]
      exact Nat.min_eq_right hle
    · rw [CharRange.rank_join_hi, rank_later, Nat.max_comm]
  rw [place, if_neg hbefore, hjoin]
  by_cases htouches : CharRange.touches range.hi head.lo = true
  · rw [if_neg (CharRange.isApart_iff_not_touches.not_left.mpr htouches), if_pos htouches]
  · rw [if_pos (CharRange.isApart_iff_not_touches.mpr htouches), if_neg htouches]

section

variable {before : CharRange} (rest : List CharRange) (hrange : range.Proper)
  (hle : rank before.lo ≤ rank range.lo)
  (htouches : CharRange.touches before.hi range.lo = true)

include hrange hle htouches

/-- A range that touches an earlier one is taken in by that. -/
theorem place_cons_of_touches :
    place range (before :: rest) = place ⟨before.lo, later before.hi range.hi⟩ rest := by
  have hnotBefore : ¬ before.isApart range = true :=
    CharRange.isApart_iff_not_touches.not_left.mpr htouches
  have hnotAfter : ¬ range.isApart before = true := by
    rw [CharRange.Proper] at hrange
    rw [CharRange.isApart_iff]
    omega
  have hjoin : before.join range = ⟨before.lo, later before.hi range.hi⟩ := by
    apply CharRange.ext_rank
    · rw [CharRange.rank_join_lo]
      exact Nat.min_eq_left hle
    · rw [CharRange.rank_join_hi, rank_later]
  rw [place, if_neg hnotBefore, if_neg hnotAfter, hjoin]

/-- It may as well start where the earlier one does. -/
theorem place_cons_eq_place_start (hbefore : before.Proper) :
    place range (before :: rest) =
      place ⟨before.lo, later range.hi before.hi⟩ (before :: rest) := by
  rw [CharRange.Proper] at hbefore
  have hstart : CharRange.Proper ⟨before.lo, later range.hi before.hi⟩ := by
    change rank before.lo ≤ rank (later range.hi before.hi)
    rw [rank_later]
    omega
  have hself : CharRange.touches before.hi before.lo = true :=
    CharRange.touches_iff.mpr (Nat.le_succ_of_le hbefore)
  have hplace := @place_cons_of_touches _ before rest hstart (Nat.le_refl _) hself
  have hsame : later before.hi range.hi = later before.hi (later range.hi before.hi) := by
    rw [← rank_inj]
    simp only [rank_later]
    omega
  rw [place_cons_of_touches rest hrange hle htouches, hplace, hsame]

end

/-- What a range takes in is what it is joined with when it is placed among ranges that start no
earlier. -/
theorem place_drop {index : Nat} (hproper : ∀ other ∈ ranges, other.Proper)
    (hle : ∀ other ∈ ranges.drop index, rank range.lo ≤ rank other.lo) :
    place range (ranges.drop index) =
      (absorb ranges range index).1 :: ranges.drop (absorb ranges range index).2 := by
  fun_induction absorb ranges range index with
  | case1 range index hindex htouches ih =>
    rw [List.drop_eq_getElem_cons hindex] at hle ⊢
    obtain ⟨hhead, hrest⟩ := List.forall_mem_cons.mp hle
    rw [place_cons_of_le _ (hproper _ (List.getElem_mem hindex)) hhead, if_pos htouches]
    exact ih hrest
  | case2 range index hindex htouches =>
    rw [List.drop_eq_getElem_cons hindex] at hle ⊢
    obtain ⟨hhead, -⟩ := List.forall_mem_cons.mp hle
    rw [place_cons_of_le _ (hproper _ (List.getElem_mem hindex)) hhead, if_neg htouches]
  | case3 range index hindex =>
    rw [List.drop_eq_nil_of_le (Nat.not_lt.mp hindex), place]

/-! ### Stepping back -/

theorem stepBack_of_eq_zero
    (hpoint : partitionPoint (fun other => other.lo < range.lo) ranges = 0) :
    stepBack ranges range = (range, 0) := by
  rw [stepBack, hpoint]
  cases ranges[0 - 1]? with
  | none => rfl
  | some before => rfl

theorem stepBack_of_eq_succ {before : CharRange} {back : List CharRange}
    (hpoint : partitionPoint (fun other => other.lo < range.lo) (front ++ before :: back) =
      front.length + 1) :
    stepBack (front ++ before :: back) range =
      if CharRange.touches before.hi range.lo then
        (⟨before.lo, later range.hi before.hi⟩, front.length)
      else (range, front.length + 1) := by
  simp [stepBack, hpoint]

theorem Canonical.pairwise_lo (hcls : cls.Canonical) :
    cls.ranges.Pairwise fun left right => rank left.lo < rank right.lo := by
  obtain ⟨hproper, hapart⟩ := canonical_iff.mp hcls
  apply hapart.imp_of_mem
  intro left right hleft _ hgap
  have hle : rank left.lo ≤ rank left.hi := hproper left hleft
  rw [CharRange.isApart_iff] at hgap
  omega

/-- The step back leaves ranges in front that are apart before the new one, and among the others the
new one, with the range before if that was touched, is placed as it would be among all. -/
theorem Canonical.exists_stepBack (hcls : cls.Canonical) (hrange : range.Proper) :
    ∃ front back start, cls.ranges = front ++ back ∧
      stepBack cls.ranges range = (start, front.length) ∧
      (∀ other ∈ back, rank start.lo ≤ rank other.lo) ∧
      place range cls.ranges = front ++ place start back := by
  obtain ⟨hproper, hapart⟩ := canonical_iff.mp hcls
  let test : CharRange → Bool := fun other => other.lo < range.lo
  have hitems : cls.ranges.Pairwise fun left right => test right = true → test left = true := by
    apply hcls.pairwise_lo.imp
    intro left right hlt hright
    simp only [test, decide_eq_true_eq, lt_iff_rank_lt] at hright ⊢
    omega
  have hback : ∀ other ∈ cls.ranges.dropWhile test, rank range.lo ≤ rank other.lo := by
    intro other hmem
    have hfalse := eq_false_of_mem_dropWhile hitems other hmem
    simpa only [test, decide_eq_false_iff_not, lt_iff_rank_lt, Nat.not_lt] using hfalse
  have hpoint := partitionPoint_eq hitems
  have hranges : cls.ranges = cls.ranges.takeWhile test ++ cls.ranges.dropWhile test :=
    List.takeWhile_append_dropWhile.symm
  generalize cls.ranges.dropWhile test = back at hback hranges
  rcases List.eq_nil_or_concat (cls.ranges.takeWhile test) with hnil | ⟨front, before, hconcat⟩
  · -- The new range starts no later than all others.
    rw [hnil, List.length_nil] at hpoint
    rw [hnil, List.nil_append] at hranges
    refine ⟨[], cls.ranges, range, rfl, stepBack_of_eq_zero hpoint, ?_, rfl⟩
    rwa [hranges]
  · rw [hconcat, List.length_concat] at hpoint
    rw [hconcat, List.concat_eq_append, List.append_assoc, List.singleton_append] at hranges
    have hbefore : before ∈ cls.ranges.takeWhile test := by
      rw [hconcat, List.concat_eq_append]
      exact List.mem_append_right _ List.mem_cons_self
    have hlt : rank before.lo < rank range.lo := by
      have hpass := List.mem_takeWhile_imp hbefore
      simpa only [test, decide_eq_true_eq, lt_iff_rank_lt] using hpass
    have hfront : ∀ other ∈ front, other.isApart range = true :=
      forall_isApart_of_pairwise (hranges ▸ hapart) (Nat.le_of_lt hlt)
    have hproper' := hproper before (hranges ▸ List.mem_append_right _ List.mem_cons_self)
    rw [hranges] at hpoint ⊢
    have hstepBack := stepBack_of_eq_succ hpoint
    by_cases htouches : CharRange.touches before.hi range.lo = true
    · rw [if_pos htouches] at hstepBack
      refine ⟨front, _, _, rfl, hstepBack, ?_, ?_⟩
      · refine List.forall_mem_cons.mpr ⟨Nat.le_refl _, ?_⟩
        exact fun other hmem => Nat.le_trans (Nat.le_of_lt hlt) (hback other hmem)
      · rw [place_append hfront, place_cons_eq_place_start _ hrange (Nat.le_of_lt hlt)
          htouches hproper']
    · rw [if_neg htouches] at hstepBack
      refine ⟨front ++ [before], back, range, by simp, ?_, hback, ?_⟩
      · rw [hstepBack, List.length_append, List.length_singleton]
      · rw [place_append_cons hfront htouches, List.append_assoc, List.singleton_append]

theorem insertIdx_length (front back : List CharRange) (range : CharRange) :
    (front ++ back).insertIdx front.length range = front ++ range :: back :=
  List.modifyTailIdx_add (List.cons range) 0 front back

/-- Splicing a range into a class places it among the ranges of the class. -/
theorem Canonical.splice_eq_insert (hcls : cls.Canonical) (range : CharRange) :
    cls.splice range = cls.insert range := by
  rw [splice, CharClass.insert, CharRange.isEmpty]
  by_cases hempty : range.hi < range.lo
  · rw [if_pos hempty, if_pos (decide_eq_true hempty)]
  · have hrange : range.Proper := by
      rw [CharRange.Proper, ← le_iff_rank_le]
      exact Char.not_lt.mp hempty
    obtain ⟨front, back, start, hranges, hstepBack, hle, hplace⟩ := hcls.exists_stepBack hrange
    have hproper : ∀ other ∈ front ++ back, other.Proper :=
      hranges ▸ (canonical_iff.mp hcls).1
    have hdropLeft : (front ++ back).drop front.length = back := List.drop_left
    have hdrop := place_drop hproper (hdropLeft ▸ hle)
    rw [List.drop_left] at hdrop
    rw [if_neg hempty, if_neg (by simpa using hempty), hstepBack, hplace, hdrop, hranges]
    simp only [List.take_left, insertIdx_length]

/-! ### Looking up -/

/-- Whether a character is in the first range that does not end before it, which is found by
halving. -/
def lookUp (cls : CharClass) (c : Char) : Bool :=
  cls.ranges[partitionPoint (fun range => range.hi < c) cls.ranges]?.any fun range => range.lo ≤ c

theorem Canonical.lookUp_eq_contains (hcls : cls.Canonical) (c : Char) :
    cls.lookUp c = cls.contains c := by
  obtain ⟨hproper, hapart⟩ := canonical_iff.mp hcls
  let test : CharRange → Bool := fun range => range.hi < c
  have hitems : cls.ranges.Pairwise fun left right => test right = true → test left = true := by
    apply hapart.imp_of_mem
    intro left right _ hright hgap hpass
    have hle : rank right.lo ≤ rank right.hi := hproper right hright
    rw [CharRange.isApart_iff] at hgap
    simp only [test, decide_eq_true_eq, lt_iff_rank_lt] at hpass ⊢
    omega
  have hnot : (fun range : CharRange => decide (c ≤ range.hi)) = fun range => !test range := by
    funext range
    simp only [test, ← decide_not, Char.not_lt]
  have hfirst : cls.ranges[(cls.ranges.takeWhile test).length]? =
      cls.ranges.find? fun range => c ≤ range.hi :=
    calc cls.ranges[(cls.ranges.takeWhile test).length]?
        = (cls.ranges.takeWhile test ++ cls.ranges.dropWhile test)[(cls.ranges.takeWhile
            test).length]? := by rw [List.takeWhile_append_dropWhile]
      _ = (cls.ranges.dropWhile test).head? := by
          rw [List.getElem?_append_right (Nat.le_refl _), Nat.sub_self, List.head?_eq_getElem?]
      _ = cls.ranges.find? fun range => c ≤ range.hi := by
          rw [hnot, List.find?_not_eq_head?_dropWhile]
  rw [lookUp, partitionPoint_eq hitems, hfirst, hcls.contains_eq_find?]

/-! ### Merging sorted ranges -/

/-- Ranges are sorted by where they start, and by where they end if they start alike. -/
def sortsBefore (left right : CharRange) : Bool :=
  left.lo < right.lo || left.lo = right.lo && left.hi ≤ right.hi

/-- Merges a range into the last one if it touches that, and otherwise puts it behind. -/
def extendLast (merged : List CharRange) (range : CharRange) : List CharRange :=
  match merged.getLast? with
  | some last =>
    if CharRange.touches last.hi range.lo then
      merged.dropLast ++ [⟨last.lo, later last.hi range.hi⟩]
    else merged ++ [range]
  | none => merged ++ [range]

/-- The characters that lie in one of the ranges.  Ranges without a character are left out, and the
others are sorted and merged. -/
def merge (ranges : List CharRange) : CharClass :=
  ⟨((ranges.filter fun range => range.lo ≤ range.hi).mergeSort sortsBefore).foldl extendLast []⟩

/-- The given characters. -/
def mergeChars (chars : List Char) : CharClass :=
  merge (chars.map fun c => ⟨c, c⟩)

theorem sortsBefore_iff {left right : CharRange} :
    sortsBefore left right = true ↔ rank left.lo < rank right.lo ∨
      rank left.lo = rank right.lo ∧ rank left.hi ≤ rank right.hi := by
  simp only [sortsBefore, Bool.or_eq_true, Bool.and_eq_true, decide_eq_true_eq, lt_iff_rank_lt,
    le_iff_rank_le, rank_inj]

theorem pairwise_lo_mergeSort (ranges : List CharRange) :
    (ranges.mergeSort sortsBefore).Pairwise fun left right => rank left.lo ≤ rank right.lo := by
  have hsorted : (ranges.mergeSort sortsBefore).Pairwise fun left right =>
      sortsBefore left right = true := by
    apply List.pairwise_mergeSort
    · intro left mid right hleft hright
      rw [sortsBefore_iff] at hleft hright ⊢
      omega
    · intro left right
      rw [Bool.or_eq_true, sortsBefore_iff, sortsBefore_iff]
      omega
  apply hsorted.imp
  intro left right hbefore
  rw [sortsBefore_iff] at hbefore
  omega

/-- A range that starts no earlier than the others is placed behind them or joined with the last. -/
theorem extendLast_eq_place (hproper : ∀ other ∈ ranges, other.Proper) (hrange : range.Proper)
    (hapart : ranges.Pairwise fun left right => left.isApart right = true)
    (hle : ∀ other ∈ ranges, rank other.lo ≤ rank range.lo) :
    extendLast ranges range = place range ranges := by
  rcases List.eq_nil_or_concat ranges with rfl | ⟨front, last, rfl⟩
  · rfl
  · rw [List.concat_eq_append] at hproper hapart hle ⊢
    have hlast := hle last (List.mem_append_right _ List.mem_cons_self)
    have hfront := forall_isApart_of_pairwise hapart hlast
    rw [extendLast, List.getLast?_concat, List.dropLast_concat]
    by_cases htouches : CharRange.touches last.hi range.lo = true
    · rw [place_append hfront, place_cons_of_touches [] hrange hlast htouches]
      exact if_pos htouches
    · rw [place_append_cons hfront htouches, place, List.append_cons front last [range]]
      exact if_neg htouches

theorem rank_lo_le_of_mem_place {bound : Nat} {other : CharRange} (hrange : rank range.lo ≤ bound)
    (hranges : ∀ head ∈ ranges, rank head.lo ≤ bound) (hmem : other ∈ place range ranges) :
    rank other.lo ≤ bound := by
  fun_induction place range ranges with
  | case1 range => exact List.mem_singleton.mp hmem ▸ hrange
  | case2 range head rest hbefore ih =>
    obtain ⟨hhead, hrest⟩ := List.forall_mem_cons.mp hranges
    rcases List.mem_cons.mp hmem with rfl | hmem
    · exact hhead
    · exact ih hrange hrest hmem
  | case3 range head rest hbefore hafter =>
    rcases List.mem_cons.mp hmem with rfl | hmem
    · exact hrange
    · exact hranges other hmem
  | case4 range head rest hbefore hafter ih =>
    obtain ⟨hhead, hrest⟩ := List.forall_mem_cons.mp hranges
    refine ih ?_ hrest hmem
    rw [CharRange.rank_join_lo]
    exact Nat.le_trans (Nat.min_le_left _ _) hhead

theorem Canonical.foldl_insert (hcls : cls.Canonical) (ranges : List CharRange) :
    (ranges.foldl CharClass.insert cls).Canonical := by
  induction ranges generalizing cls with
  | nil => exact hcls
  | cons range rest ih => exact ih (hcls.insert range)

/-- Sorted ranges that are merged one after another are inserted one after another. -/
theorem Canonical.foldl_extendLast_eq (hcls : cls.Canonical) {sorted : List CharRange}
    (hproper : ∀ range ∈ sorted, range.Proper)
    (hsorted : sorted.Pairwise fun left right => rank left.lo ≤ rank right.lo)
    (hle : ∀ other ∈ cls.ranges, ∀ range ∈ sorted, rank other.lo ≤ rank range.lo) :
    (⟨sorted.foldl extendLast cls.ranges⟩ : CharClass) = sorted.foldl CharClass.insert cls := by
  induction sorted generalizing cls with
  | nil => rfl
  | cons range rest ih =>
    obtain ⟨hclsProper, hclsApart⟩ := canonical_iff.mp hcls
    obtain ⟨hrange, hrest⟩ := List.forall_mem_cons.mp hproper
    obtain ⟨hfirst, hlater⟩ := List.pairwise_cons.mp hsorted
    have hinsert : cls.insert range = ⟨place range cls.ranges⟩ := by
      rw [CharClass.insert, CharRange.isEmpty_eq_false_iff.mpr hrange]
      rfl
    have hplace := extendLast_eq_place hclsProper hrange hclsApart
      fun other hother => hle other hother range List.mem_cons_self
    have hmerged := ih (hcls.insert range) hrest hlater (by
      intro other hother next hnext
      rw [hinsert] at hother
      exact rank_lo_le_of_mem_place (hfirst next hnext)
        (fun head hhead => hle head hhead next (List.mem_cons_of_mem _ hnext)) hother)
    rw [List.foldl_cons, List.foldl_cons, hplace, ← hmerged, hinsert]

/-- Merging ranges makes the class that has them all. -/
theorem merge_eq_ofRanges (ranges : List CharRange) : merge ranges = ofRanges ranges := by
  let sorted := (ranges.filter fun range => range.lo ≤ range.hi).mergeSort sortsBefore
  have hmem : ∀ range, range ∈ sorted ↔ range ∈ ranges ∧ range.Proper := by
    intro range
    rw [List.mem_mergeSort, List.mem_filter, decide_eq_true_eq, CharRange.proper_iff]
  have hmerge : merge ranges = sorted.foldl CharClass.insert empty :=
    canonical_empty.foldl_extendLast_eq (fun range hrange => ((hmem range).mp hrange).2)
      (pairwise_lo_mergeSort _) fun other hother => absurd hother List.not_mem_nil
  rw [hmerge]
  apply (canonical_empty.foldl_insert sorted).eq_of_contains_iff (canonical_ofRanges ranges)
  intro c
  rw [contains_foldl_insert_iff, contains_ofRanges_iff]
  constructor
  · rintro (hempty | ⟨range, hrange, hcontains⟩)
    · cases hempty
    · exact ⟨range, ((hmem range).mp hrange).1, hcontains⟩
  · rintro ⟨range, hrange, hcontains⟩
    obtain ⟨hlo, hhi⟩ := CharRange.contains_iff.mp hcontains
    exact .inr ⟨range, (hmem range).mpr ⟨hrange, Nat.le_trans hlo hhi⟩, hcontains⟩

end CharClass

end EmojiPatterns
