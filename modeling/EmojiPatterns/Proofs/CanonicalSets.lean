import EmojiPatterns.Proofs.ListedSets
import EmojiPatterns.Proofs.SequenceOrder
import EmojiPatterns.Proofs.TableSets
import Mathlib.Data.List.Duplicate

/-!
# Canonical sets

A list of sequences makes one set or one fault, in whatever order it is given: an empty list makes
no set, and where sequences are listed twice the least of these is named.  The set holds what was
listed in the order of the bytes, in which a member is found by halving, so it is the only set of
its name and its members, and they alone determine its fragment.  Main statements:
`Sequence.isFound_iff`, `StringSet.sets_are_canonical`.
-/

namespace EmojiPatterns

namespace Sequence

variable {sequences : List Sequence}

/-! ### Repeats -/

/-- The least of the sequences that are listed more than once. -/
structure IsLeastRepeat (sequences : List Sequence) (repeated : Sequence) : Prop where
  duplicate : List.Duplicate repeated sequences
  le : ∀ other, List.Duplicate other sequences → repeated ≤ other

theorem IsLeastRepeat.unique {first second : Sequence} (hfirst : IsLeastRepeat sequences first)
    (hsecond : IsLeastRepeat sequences second) : first = second :=
  le_antisymm (hfirst.le second hsecond.duplicate) (hsecond.le first hfirst.duplicate)

theorem duplicate_sort_iff {sequence : Sequence} :
    List.Duplicate sequence (sort sequences) ↔ List.Duplicate sequence sequences := by
  rw [List.duplicate_iff_two_le_count, List.duplicate_iff_two_le_count,
    (sort_perm sequences).count_eq]

/-- In an ascending list the first repeat is of the least sequence that has one. -/
theorem isLeastRepeat_of_firstRepeat? (hsorted : sequences.Pairwise (· ≤ ·)) {repeated : Sequence}
    (hfirst : firstRepeat? sequences = some repeated) : IsLeastRepeat sequences repeated := by
  fun_induction firstRepeat? sequences with
  | case1 right rest =>
    cases hfirst
    refine ⟨List.duplicate_cons_iff.mpr (.inl ⟨rfl, List.mem_cons_self⟩), ?_⟩
    intro other hother
    rcases List.mem_cons.mp hother.mem with rfl | hmem
    · exact Sequence.le_iff_lt_or_eq.mpr (.inr rfl)
    · exact (List.pairwise_cons.mp hsorted).1 other hmem
  | case2 left right rest hne ih =>
    have hleast := ih (List.pairwise_cons.mp hsorted).2 hfirst
    refine ⟨hleast.duplicate.duplicate_cons left, ?_⟩
    intro other hother
    rcases List.duplicate_cons_iff.mp hother with ⟨rfl, hmem⟩ | hlater
    · exact absurd hmem (not_mem_of_ne hsorted hne)
    · exact hleast.le other hlater
  | case3 => cases hfirst

/-! ### Halving -/

/-- Where a sequence has to be if it is one of the `size` from `base` on in an ascending list.  Its
bytes are compared with those of the middle one, and the half that may hold it is kept. -/
def narrow (target : Sequence) (sequences : List Sequence) (base size : Nat) : Nat :=
  if _hsize : size < 2 then base
  else if sequences[base + size / 2]?.any fun other => target.utf8Bytes < other.utf8Bytes then
    narrow target sequences base (size - size / 2)
  else narrow target sequences (base + size / 2) (size - size / 2)
termination_by size
decreasing_by all_goals omega

/-- Whether a sequence is found in an ascending list by halving. -/
def isFound (target : Sequence) (sequences : List Sequence) : Bool :=
  sequences[target.narrow sequences 0 sequences.length]? == some target

/-- In an ascending list the sequences are ordered as their places are. -/
theorem getElem_lt_iff (hsorted : sequences.Pairwise (· < ·)) {i j : Nat}
    (hi : i < sequences.length) (hj : j < sequences.length) :
    sequences[i] < sequences[j] ↔ i < j := by
  have hplaces := List.pairwise_iff_getElem.mp hsorted
  refine ⟨?_, hplaces i j hi hj⟩
  intro hless
  rcases Nat.lt_trichotomy i j with hlt | rfl | hgt
  · exact hlt
  · exact absurd hless (Sequence.lt_irrefl _)
  · exact absurd (Sequence.lt_trans hless (hplaces j i hj hi hgt)) (Sequence.lt_irrefl _)

/-- The half that is kept holds the sequence. -/
theorem narrow_eq (hsorted : sequences.Pairwise (· < ·)) {target : Sequence} {index : Nat}
    (hindex : sequences[index]? = some target) {base size : Nat} (hbase : base ≤ index)
    (hlast : index < base + size) (hsize : base + size ≤ sequences.length) :
    target.narrow sequences base size = index := by
  obtain ⟨hbound, rfl⟩ := List.getElem?_eq_some_iff.mp hindex
  have hbefore : ∀ middle < sequences.length,
      sequences[middle]?.any (fun other => sequences[index].utf8Bytes < other.utf8Bytes) = true ↔
        index < middle := by
    intro middle hmiddle
    rw [List.getElem?_eq_getElem hmiddle, Option.any_some, decide_eq_true_eq, utf8Bytes_lt_iff,
      getElem_lt_iff hsorted hbound hmiddle]
  fun_induction narrow sequences[index] sequences base size with
  | case1 base size hsmall => omega
  | case2 base size hlarge hless ih =>
    rw [hbefore _ (by omega)] at hless
    exact ih hbase (by omega) (by omega)
  | case3 base size hlarge hless ih =>
    rw [hbefore _ (by omega)] at hless
    exact ih (by omega) (by omega) (by omega)

/-- In an ascending list just what is listed is found by halving. -/
theorem isFound_iff (hsorted : sequences.Pairwise (· < ·)) {target : Sequence} :
    target.isFound sequences = true ↔ target ∈ sequences := by
  rw [isFound, beq_iff_eq, List.mem_iff_getElem?]
  constructor
  · intro hfound
    exact ⟨_, hfound⟩
  · rintro ⟨index, hindex⟩
    have hbound := (List.getElem?_eq_some_iff.mp hindex).1
    rwa [narrow_eq hsorted hindex (Nat.zero_le _) (by omega) (by omega)]

end Sequence

namespace StringSet

variable {name : String} {sequences : List Sequence} {set : StringSet}

/-! ### Faults -/

theorem ofList_nil (name : String) : ofList name [] = .error (.emptySet name) := by
  simp [ofList, ofMembers?, Sequence.distinct, Sequence.sort, Sequence.dropRepeats]

theorem ofList_of_firstRepeat? {repeated : Sequence}
    (hfirst : Sequence.firstRepeat? (Sequence.sort sequences) = some repeated) :
    ofList name sequences = .error (.duplicateSequence name repeated) := by
  have hne : sequences ≠ [] := by
    rintro rfl
    simp [Sequence.sort, Sequence.firstRepeat?] at hfirst
  have hsome : (ofMembers? name sequences).isSome = true := isSome_ofMembers? hne
  obtain ⟨set, hset⟩ := Option.isSome_iff_exists.mp hsome
  simp only [ofList, hset, hfirst]

/-- A list is empty, has a least repeat or makes a set. -/
theorem ofList_cases (name : String) (sequences : List Sequence) :
    (sequences = [] ∧ ofList name sequences = .error (.emptySet name)) ∨
    (∃ repeated, Sequence.IsLeastRepeat sequences repeated ∧
      ofList name sequences = .error (.duplicateSequence name repeated)) ∨
    (sequences ≠ [] ∧ sequences.Nodup ∧ ∃ set, ofList name sequences = .ok set) := by
  by_cases hempty : sequences = []
  · exact .inl ⟨hempty, hempty ▸ ofList_nil name⟩
  · have hsorted := Sequence.pairwise_le_sort sequences
    cases hfirst : Sequence.firstRepeat? (Sequence.sort sequences) with
    | some repeated =>
      obtain ⟨hduplicate, hle⟩ := Sequence.isLeastRepeat_of_firstRepeat? hsorted hfirst
      simp only [Sequence.duplicate_sort_iff] at hduplicate hle
      exact .inr (.inl ⟨repeated, ⟨hduplicate, hle⟩, ofList_of_firstRepeat? hfirst⟩)
    | none =>
      have hnodup : sequences.Nodup := (Sequence.sort_perm sequences).nodup_iff.mp
        ((Sequence.firstRepeat?_eq_none_iff hsorted).mp hfirst)
      exact .inr (.inr ⟨hempty, hnodup, exists_ofList_eq_ok_iff.mpr ⟨hempty, hnodup⟩⟩)

theorem ofList_eq_emptySet_iff :
    ofList name sequences = .error (.emptySet name) ↔ sequences = [] := by
  rcases ofList_cases name sequences with ⟨hempty, hfault⟩ | ⟨repeated, hleast, hfault⟩ |
    ⟨hne, -, set, hset⟩
  · exact iff_of_true hfault hempty
  · rw [hfault]
    exact iff_of_false nofun (List.ne_nil_of_mem hleast.duplicate.mem)
  · rw [hset]
    exact iff_of_false nofun hne

theorem ofList_eq_duplicateSequence_iff {repeated : Sequence} :
    ofList name sequences = .error (.duplicateSequence name repeated) ↔
      Sequence.IsLeastRepeat sequences repeated := by
  rcases ofList_cases name sequences with ⟨rfl, hfault⟩ | ⟨least, hleast, hfault⟩ |
    ⟨-, hnodup, set, hset⟩
  · rw [hfault]
    exact iff_of_false nofun fun hrepeat => List.not_duplicate_nil repeated hrepeat.duplicate
  · rw [hfault]
    constructor
    · rintro ⟨⟩
      exact hleast
    · intro hrepeat
      rw [hleast.unique hrepeat]
  · rw [hset]
    exact iff_of_false nofun fun hrepeat =>
      List.nodup_iff_forall_not_duplicate.mp hnodup repeated hrepeat.duplicate

theorem exists_ofList_eq_duplicateSequence_iff :
    (∃ repeated, ofList name sequences = .error (.duplicateSequence name repeated)) ↔
      ∃ sequence, List.Duplicate sequence sequences := by
  constructor
  · rintro ⟨repeated, hfault⟩
    exact ⟨repeated, (ofList_eq_duplicateSequence_iff.mp hfault).duplicate⟩
  · rintro ⟨sequence, hduplicate⟩
    rcases ofList_cases name sequences with ⟨rfl, -⟩ | ⟨repeated, -, hfault⟩ | ⟨-, hnodup, -⟩
    · exact absurd hduplicate (List.not_duplicate_nil sequence)
    · exact ⟨repeated, hfault⟩
    · exact absurd hduplicate (List.nodup_iff_forall_not_duplicate.mp hnodup sequence)

/-! ### Members -/

/-- A set holds what a list of different sequences names. -/
structure Holds (set : StringSet) (name : String) (sequences : List Sequence) : Prop where
  name_eq : set.name = name
  ascending : set.sequences.Pairwise fun left right => left.utf8Bytes < right.utf8Bytes
  perm : set.sequences.Perm sequences
  contains_iff : ∀ sequence, set.contains sequence = true ↔ sequence ∈ sequences
  isFound_iff : ∀ sequence : Sequence,
    sequence.isFound set.sequences = true ↔ sequence ∈ sequences
  size_eq : set.size = sequences.length
  length_le : ∀ sequence ∈ sequences, sequence.length ≤ set.maxLength
  exists_length_eq : ∃ sequence ∈ sequences, sequence.length = set.maxLength

theorem max?_length (set : StringSet) :
    (set.sequences.map Sequence.length).max? = some set.maxLength := by
  have hne : set.sequences.map Sequence.length ≠ [] := mt List.map_eq_nil_iff.mp set.nonempty
  obtain ⟨length, hmax⟩ := Option.isSome_iff_exists.mp (List.isSome_max?_iff.mpr hne)
  rw [maxLength, List.foldl_max, hmax, Option.getD_some, Nat.zero_max]

theorem holds_of_ofList (hset : ofList name sequences = .ok set) : set.Holds name sequences := by
  obtain ⟨-, -, hname, hsequences⟩ := ofList_eq_ok_iff.mp hset
  have hperm : set.sequences.Perm sequences := hsequences ▸ Sequence.sort_perm sequences
  obtain ⟨hlongest, hlength⟩ := List.max?_eq_some_iff.mp set.max?_length
  exact {
    name_eq := hname
    ascending := set.ascending.imp Sequence.utf8Bytes_lt_iff.mpr
    perm := hperm
    contains_iff := fun _ => List.contains_iff_mem.trans hperm.mem_iff
    isFound_iff := fun _ => (Sequence.isFound_iff set.ascending).trans hperm.mem_iff
    size_eq := hperm.length_eq
    length_le := fun _ hmem => hlength _ (List.mem_map_of_mem (hperm.mem_iff.mpr hmem))
    exists_length_eq := by
      obtain ⟨sequence, hmem, heq⟩ := List.mem_map.mp hlongest
      exact ⟨sequence, hperm.mem_iff.mp hmem, heq⟩ }

/-- The fragment of a set has nothing of its name. -/
theorem fragment_eq_of_mem_iff {first second : StringSet}
    (hmem : ∀ sequence, sequence ∈ first.sequences ↔ sequence ∈ second.sequences) (merge : Bool) :
    first.fragment merge = second.fragment merge := by
  have hsame := sequences_eq_of_mem_iff hmem
  cases first
  cases second
  subst hsame
  rfl

/-- Whether a list makes a set depends on its repeats alone: without sequences it makes none, and
of those that are listed twice the least is named.  The set holds the sequences in the order of
their bytes.  The order of the list does not matter for the set, the fault or the fragment, and sets
are equal if their names and their members are. -/
theorem sets_are_canonical :
    (∀ name sequences,
      (ofList name sequences = .error (.emptySet name) ↔ sequences = []) ∧
      ((∃ repeated, ofList name sequences = .error (.duplicateSequence name repeated)) ↔
        ∃ sequence, List.Duplicate sequence sequences) ∧
      (∀ repeated, ofList name sequences = .error (.duplicateSequence name repeated) ↔
        Sequence.IsLeastRepeat sequences repeated) ∧
      ((∃ set, ofList name sequences = .ok set) ↔ sequences ≠ [] ∧ sequences.Nodup) ∧
      ∀ set, ofList name sequences = .ok set → set.Holds name sequences) ∧
    (∀ name left right, left.Perm right →
      ofList name left = ofList name right ∧
      ∀ merge, Fragment.ofList name left merge = Fragment.ofList name right merge) ∧
    ∀ first second : StringSet,
      (first = second ↔ first.name = second.name ∧
        ∀ sequence, sequence ∈ first.sequences ↔ sequence ∈ second.sequences) ∧
      ((∀ sequence, sequence ∈ first.sequences ↔ sequence ∈ second.sequences) →
        ∀ merge, first.fragment merge = second.fragment merge) := by
  refine ⟨?lists, ?orders, ?sets⟩
  case lists =>
    intro name sequences
    exact ⟨ofList_eq_emptySet_iff, exists_ofList_eq_duplicateSequence_iff,
      fun _ => ofList_eq_duplicateSequence_iff, exists_ofList_eq_ok_iff, fun _ => holds_of_ofList⟩
  case orders =>
    intro name left right hperm
    have hsame : ofList name left = ofList name right := ofList_eq_of_perm hperm
    refine ⟨hsame, ?_⟩
    intro merge
    rw [Fragment.ofList, Fragment.ofList, hsame]
  case sets =>
    intro first second
    refine ⟨?_, fragment_eq_of_mem_iff⟩
    constructor
    · rintro rfl
      exact ⟨rfl, fun _ => Iff.rfl⟩
    · rintro ⟨hname, hmem⟩
      exact ext_mem hname hmem

/-- Two signs listed in either order, and a copy of their set under another name. -/
theorem sets_are_canonical_signs :
    ∃ set, ofList "Signs" [.singleton '*', .singleton '#'] = .ok set ∧
      set.Holds "Signs" [.singleton '*', .singleton '#'] ∧
      ofList "Signs" [.singleton '#', .singleton '*'] = .ok set ∧
      Fragment.ofList "Signs" [.singleton '*', .singleton '#'] true =
        Fragment.ofList "Signs" [.singleton '#', .singleton '*'] true ∧
      set.fragment false = { set with name := "Copy" }.fragment false := by
  obtain ⟨hlists, horders, hsets⟩ := sets_are_canonical
  obtain ⟨-, -, -, hmade, hholds⟩ := hlists "Signs" [.singleton '*', .singleton '#']
  obtain ⟨set, hset⟩ := hmade.mpr ⟨by decide, by decide⟩
  obtain ⟨hsame, hfragments⟩ := horders "Signs" [.singleton '*', .singleton '#']
    [.singleton '#', .singleton '*'] (List.Perm.swap _ _ _)
  exact ⟨set, hset, hholds set hset, hsame ▸ hset, hfragments true,
    (hsets set { set with name := "Copy" }).2 (fun _ => Iff.rfl) false⟩

end StringSet

end EmojiPatterns
