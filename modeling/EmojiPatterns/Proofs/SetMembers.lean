import EmojiPatterns.Fragment.LongestFirst
import EmojiPatterns.Proofs.ClassMembers
import EmojiPatterns.Proofs.FragmentWords
import Mathlib.Data.List.Basic

/-!
# Members of sets in fragments

The fragment of a set tries the members one after another, the longest first and in ascending order
among those of one length.  Sorting the long members alone and putting the single characters last
comes to the same order, and a class of these characters, where one is made, can be left at one
place at most, as each of them by itself.  Main statements: `StringSet.ends_fragment`,
`StringSet.longest_of_head?_ends`.
-/

namespace EmojiPatterns

variable {text : List Char}

namespace Sequence

theorem precedes_iff {left right : Sequence} :
    left.precedes right = true ↔
      right.length < left.length ∨ (left.length = right.length ∧ left ≤ right) := by
  simp [precedes]

theorem precedes_trans (left mid right : Sequence) (hleft : left.precedes mid = true)
    (hright : mid.precedes right = true) : left.precedes right = true := by
  rw [precedes_iff] at hleft hright ⊢
  rcases hleft with hlonger | ⟨heq, hle⟩
  · left
    omega
  · rcases hright with hlonger | ⟨hsame, hnext⟩
    · left
      omega
    · exact .inr ⟨heq.trans hsame, Sequence.le_trans hle hnext⟩

theorem precedes_total (left right : Sequence) :
    (left.precedes right || right.precedes left) = true := by
  rw [Bool.or_eq_true, precedes_iff, precedes_iff]
  rcases Nat.lt_trichotomy left.length right.length with hlt | heq | hgt
  · exact .inr (.inl hlt)
  · rcases Sequence.le_total left right with hle | hle
    · exact .inl (.inr ⟨heq, hle⟩)
    · exact .inr (.inr ⟨heq.symm, hle⟩)
  · exact .inl (.inl hgt)

theorem precedes_antisymm {left right : Sequence} (hleft : left.precedes right = true)
    (hright : right.precedes left = true) : left = right := by
  rw [precedes_iff] at hleft hright
  have hle : left ≤ right ∧ right ≤ left := by
    constructor
    · rcases hleft with hlonger | ⟨-, hle⟩
      · omega
      · exact hle
    · rcases hright with hlonger | ⟨-, hle⟩
      · omega
      · exact hle
  rcases Sequence.le_iff_lt_or_eq.mp hle.1 with hlt | heq
  · exact absurd hlt hle.2
  · exact heq

theorem length_le_of_precedes {left right : Sequence} (hprecedes : left.precedes right = true) :
    right.length ≤ left.length := by
  rw [precedes_iff] at hprecedes
  omega

theorem length_pos (sequence : Sequence) : 0 < sequence.length :=
  List.length_pos_iff.mpr sequence.nonempty

theorem chars_of_isSingle {sequence : Sequence} (hsingle : sequence.isSingle = true) :
    sequence.chars = [sequence.first] := by
  have hlength : sequence.chars.length = 1 := by simpa [isSingle, length] using hsingle
  obtain ⟨x, hchars⟩ := List.length_eq_one_iff.mp hlength
  simp [first, hchars]

theorem pairwise_precedes_mergeSort (sequences : List Sequence) :
    (sequences.mergeSort precedes).Pairwise fun left right => left.precedes right = true :=
  List.pairwise_mergeSort precedes_trans precedes_total sequences

end Sequence

namespace StringSet

variable (set : StringSet) (merge : Bool)

/-- All members, the longest first and in ascending order among those of one length. -/
def tried : List Sequence :=
  set.sequences.mergeSort Sequence.precedes

@[simp]
theorem mem_tried {sequence : Sequence} : sequence ∈ set.tried ↔ sequence ∈ set.sequences :=
  List.mem_mergeSort

theorem nodup_sequences : set.sequences.Nodup := by
  apply set.ascending.imp
  intro left right hlt heq
  exact Sequence.lt_irrefl left (heq ▸ hlt)

theorem mem_singleMembers {sequence : Sequence} :
    sequence ∈ set.singleMembers ↔ sequence ∈ set.sequences ∧ sequence.isSingle = true :=
  List.mem_filter

/-- Putting the members of one character last is part of the order by length. -/
theorem longMembers_append_singleMembers : set.longMembers ++ set.singleMembers = set.tried := by
  apply List.Perm.eq_of_pairwise fun _ _ _ _ => Sequence.precedes_antisymm
  · refine List.pairwise_append.mpr ⟨Sequence.pairwise_precedes_mergeSort _, ?_, ?_⟩
    · apply (set.ascending.filter Sequence.isSingle).imp_of_mem
      intro left right hleft hright hlt
      have hone := eq_of_beq (set.mem_singleMembers.mp hleft).2
      have hsame := eq_of_beq (set.mem_singleMembers.mp hright).2
      exact Sequence.precedes_iff.mpr
        (.inr ⟨hone.trans hsame.symm, Sequence.le_iff_lt_or_eq.mpr (.inl hlt)⟩)
    · intro left hleft right hright
      have hmany := (List.mem_filter.mp (List.mem_mergeSort.mp hleft)).2
      have hone := eq_of_beq (set.mem_singleMembers.mp hright).2
      have hpos := left.length_pos
      simp only [Sequence.isSingle, Bool.not_eq_true', beq_eq_false_iff_ne, ne_eq] at hmany
      rw [Sequence.precedes_iff]
      omega
  · exact Sequence.pairwise_precedes_mergeSort _
  · have hsplit := List.filter_append_perm Sequence.isSingle set.sequences
    have hlong := List.mergeSort_perm (set.sequences.filter fun sequence => !sequence.isSingle)
      Sequence.precedes
    have hboth := (hlong.append_right set.singleMembers).trans
      (List.perm_append_comm.trans hsplit)
    exact hboth.trans (List.mergeSort_perm _ _).symm

/-- At most one of several different characters lies ahead, so their order does not matter. -/
theorem afterOneOf?_ofChars {chars : List Char} (hnodup : chars.Nodup) (c : Cursor text) :
    (Fragment.afterOneOf? (CharClass.ofChars chars) c).toList =
      chars.filterMap fun x => c.advance? [x] := by
  simp only [Fragment.afterOneOf?, CharClass.contains_ofChars_iff, Cursor.advance?]
  cases c.next? with
  | none => simp
  | some step =>
    obtain ⟨y, d⟩ := step
    induction chars with
    | nil => rfl
    | cons x rest ih =>
      obtain ⟨hfresh, hrest⟩ := List.nodup_cons.mp hnodup
      have hih := ih hrest
      by_cases hxy : x = y
      · subst hxy
        simp [hfresh] at hih ⊢
        exact hih
      · simpa [hxy, Ne.symm hxy] using hih

theorem ends_literals (sequences : List Sequence) (c : Cursor text) :
    ((sequences.map Fragment.literal).flatMap fun choice => choice.ends c) =
      sequences.filterMap fun sequence => c.advance? sequence.chars := by
  rw [List.flatMap_map, List.filterMap_eq_flatMap_toList]
  rfl

theorem chars_of_mem_singleMembers {sequence : Sequence} (hmem : sequence ∈ set.singleMembers) :
    sequence.chars = [sequence.first] :=
  Sequence.chars_of_isSingle (set.mem_singleMembers.mp hmem).2

theorem nodup_first_singleMembers : (set.singleMembers.map Sequence.first).Nodup := by
  apply List.pairwise_map.mpr
  apply (set.nodup_sequences.filter Sequence.isSingle).imp_of_mem
  intro left right hleft hright hne hfirst
  apply hne
  apply Sequence.ext
  rw [set.chars_of_mem_singleMembers hleft, set.chars_of_mem_singleMembers hright, hfirst]

theorem ends_singleChoices (c : Cursor text) :
    ((set.singleChoices merge).flatMap fun choice => choice.ends c) =
      set.singleMembers.filterMap fun sequence => c.advance? sequence.chars := by
  rw [singleChoices]
  by_cases hnone : set.singleMembers = []
  · simp [hnone]
  · rw [if_neg hnone]
    cases merge with
    | false => rw [if_neg Bool.false_ne_true, ends_literals]
    | true =>
      rw [if_pos rfl, List.flatMap_singleton, Fragment.ends,
        afterOneOf?_ofChars set.nodup_first_singleMembers, List.filterMap_map]
      apply List.filterMap_congr
      intro sequence hmem
      rw [Function.comp_apply, set.chars_of_mem_singleMembers hmem]

/-- A single alternative that stands by itself has the ends of a choice of one. -/
theorem ends_fragment_eq_flatMap (c : Cursor text) :
    (set.fragment merge).ends c =
      (set.longMembers.map Fragment.literal ++ set.singleChoices merge).flatMap
        fun choice => choice.ends c := by
  rw [fragment]
  split
  · next alternative hone => rw [hone, List.flatMap_singleton]
  · rw [Fragment.ends, Fragment.endsOfAll_eq_flatMap]

/-- The ends of the fragment of a set are the places behind the members that lie ahead, in the
order in which the members are tried. -/
theorem ends_fragment (c : Cursor text) :
    (set.fragment merge).ends c =
      set.tried.filterMap fun sequence => c.advance? sequence.chars := by
  rw [ends_fragment_eq_flatMap, List.flatMap_append, ends_singleChoices,
    ends_literals, ← longMembers_append_singleMembers, List.filterMap_append]

theorem mem_ends_fragment_iff {c d : Cursor text} :
    d ∈ (set.fragment merge).ends c ↔
      ∃ sequence ∈ set.sequences, c.ahead = sequence.chars ++ d.ahead := by
  rw [ends_fragment, List.mem_filterMap]
  simp only [mem_tried, Cursor.advance?_eq_some_iff]

/-- The first end is behind a member, and no longer member lies ahead. -/
theorem longest_of_head?_ends {c d : Cursor text}
    (hhead : ((set.fragment merge).ends c).head? = some d) :
    ∃ sequence ∈ set.sequences, c.ahead = sequence.chars ++ d.ahead ∧
      ∀ other ∈ set.sequences, ∀ rest, c.ahead = other.chars ++ rest →
        other.length ≤ sequence.length := by
  rw [ends_fragment, List.head?_filterMap, List.findSome?_eq_some_iff] at hhead
  obtain ⟨before, sequence, after, htried, hends, hnone⟩ := hhead
  have hmem : sequence ∈ set.tried := by simp [htried]
  refine ⟨sequence, set.mem_tried.mp hmem, Cursor.advance?_eq_some_iff.mp hends, ?_⟩
  intro other hother rest hahead
  obtain ⟨e, rfl⟩ := Cursor.exists_ahead_eq hahead
  have hsome := Cursor.advance?_eq_some_iff.mpr hahead
  have hsorted : set.tried.Pairwise fun left right => left.precedes right = true :=
    Sequence.pairwise_precedes_mergeSort _
  have hplace : other ∈ before ++ sequence :: after := htried ▸ set.mem_tried.mpr hother
  rcases List.mem_append.mp hplace with hbefore | hafter
  · simp [hnone other hbefore] at hsome
  · rcases List.mem_cons.mp hafter with rfl | hafter
    · exact Nat.le_refl _
    · rw [htried] at hsorted
      have hrest := (List.pairwise_append.mp hsorted).2.1
      exact Sequence.length_le_of_precedes ((List.pairwise_cons.mp hrest).1 other hafter)

end StringSet

end EmojiPatterns
