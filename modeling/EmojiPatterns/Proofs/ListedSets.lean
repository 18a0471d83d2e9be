import EmojiPatterns.Proofs.SetMembers

/-!
# Sets and the lists they are made of

Sorting forgets the order of a list and brings equal sequences together, so whether a list makes a
set, and which set or fault it makes, depends only on how often each sequence occurs.  Main
statements: `StringSet.ofList_eq_ok_iff`, `StringSet.ofList_eq_of_perm`.
-/

namespace EmojiPatterns

namespace Sequence

variable {sequences left right : List Sequence}

theorem sort_perm (sequences : List Sequence) : (sort sequences).Perm sequences :=
  List.mergeSort_perm sequences _

theorem le_antisymm {first second : Sequence} (hle : first ≤ second) (hge : second ≤ first) :
    first = second := by
  rcases Sequence.le_iff_lt_or_eq.mp hle with hlt | heq
  · exact absurd hlt hge
  · exact heq

/-- However a list is sorted, the same list comes out. -/
theorem sort_eq_of_pairwise {sorted : List Sequence} (hperm : sorted.Perm sequences)
    (hsorted : sorted.Pairwise (· ≤ ·)) : sort sequences = sorted := by
  apply List.Perm.eq_of_pairwise (fun _ _ _ _ => le_antisymm) (pairwise_le_sort sequences) hsorted
  exact (sort_perm sequences).trans hperm.symm

/-- Sorting forgets in which order sequences were listed. -/
theorem sort_eq_of_perm (hperm : left.Perm right) : sort left = sort right :=
  sort_eq_of_pairwise ((sort_perm right).trans hperm.symm) (pairwise_le_sort right)

/-- In an ascending list a sequence that occurs again does so right behind itself. -/
theorem not_mem_of_ne {first second : Sequence}
    (hsorted : (first :: second :: sequences).Pairwise (· ≤ ·)) (hne : first ≠ second) :
    first ∉ second :: sequences := by
  obtain ⟨hfirst, hrest⟩ := List.pairwise_cons.mp hsorted
  intro hmem
  rcases List.mem_cons.mp hmem with heq | hmem
  · exact hne heq
  · have hback : second ≤ first := (List.pairwise_cons.mp hrest).1 first hmem
    exact hne (le_antisymm (hfirst second List.mem_cons_self) hback)

theorem firstRepeat?_eq_none_iff (hsorted : sequences.Pairwise (· ≤ ·)) :
    firstRepeat? sequences = none ↔ sequences.Nodup := by
  fun_induction firstRepeat? sequences with
  | case1 right rest => simp
  | case2 left right rest hne ih =>
    rw [ih (List.pairwise_cons.mp hsorted).2]
    refine ⟨?_, fun hnodup => (List.nodup_cons.mp hnodup).2⟩
    intro hnodup
    exact List.nodup_cons.mpr ⟨not_mem_of_ne hsorted hne, hnodup⟩
  | case3 sequences hshort =>
    match sequences, hshort with
    | [], _ => simp
    | [_], _ => simp
    | left :: right :: rest, hshort => exact (hshort left right rest rfl).elim

theorem dropRepeats_eq_self (hnodup : sequences.Nodup) : dropRepeats sequences = sequences := by
  fun_induction dropRepeats sequences with
  | case1 right rest ih => simp at hnodup
  | case2 left right rest hne ih => rw [ih (List.nodup_cons.mp hnodup).2]
  | case3 => rfl

theorem distinct_eq_sort (hnodup : sequences.Nodup) : distinct sequences = sort sequences :=
  dropRepeats_eq_self ((sort_perm sequences).nodup_iff.mpr hnodup)

end Sequence

namespace StringSet

variable {name : String} {sequences left right : List Sequence}

theorem pairwise_le_sequences (set : StringSet) : set.sequences.Pairwise (· ≤ ·) :=
  set.ascending.imp fun hlt => Sequence.le_iff_lt_or_eq.mpr (.inl hlt)

/-- The members determine the order in which they are kept. -/
theorem sequences_eq_of_mem_iff {first second : StringSet}
    (hmem : ∀ sequence, sequence ∈ first.sequences ↔ sequence ∈ second.sequences) :
    first.sequences = second.sequences := by
  have hperm :=
    (List.perm_ext_iff_of_nodup first.nodup_sequences second.nodup_sequences).mpr hmem
  exact List.Perm.eq_of_pairwise (fun _ _ _ _ => Sequence.le_antisymm) first.pairwise_le_sequences
    second.pairwise_le_sequences hperm

/-- A set is its name and its members. -/
theorem ext_mem {first second : StringSet} (hname : first.name = second.name)
    (hmem : ∀ sequence, sequence ∈ first.sequences ↔ sequence ∈ second.sequences) :
    first = second := by
  have hsame := sequences_eq_of_mem_iff hmem
  cases first
  cases second
  simp_all

/-- A list makes a set if it names some sequence and none twice, and then the set has just these. -/
theorem ofList_eq_ok_iff {set : StringSet} :
    ofList name sequences = .ok set ↔
      sequences ≠ [] ∧ sequences.Nodup ∧ set.name = name ∧
        set.sequences = Sequence.sort sequences := by
  have hrepeat := Sequence.firstRepeat?_eq_none_iff (Sequence.pairwise_le_sort sequences)
  rw [(Sequence.sort_perm sequences).nodup_iff] at hrepeat
  have hnil : Sequence.distinct sequences = [] ↔ sequences = [] := by
    simp only [List.eq_nil_iff_forall_not_mem, Sequence.mem_distinct]
  simp only [ofList, ofMembers?]
  by_cases hempty : sequences = []
  · rw [dif_neg (not_not_intro (hnil.mpr hempty))]
    simp [hempty]
  · rw [dif_pos (mt hnil.mp hempty)]
    by_cases hnodup : sequences.Nodup
    · simp only [hrepeat.mpr hnodup, Except.ok.injEq]
      have hdistinct := Sequence.distinct_eq_sort hnodup
      constructor
      · rintro rfl
        exact ⟨hempty, hnodup, rfl, hdistinct⟩
      · intro hset
        obtain ⟨-, -, hname, hsequences⟩ := hset
        cases set
        simp_all
    · obtain ⟨sequence, hfirst⟩ := Option.ne_none_iff_exists'.mp (mt hrepeat.mp hnodup)
      simp [hfirst, hnodup]

theorem exists_ofList_eq_ok_iff :
    (∃ set, ofList name sequences = .ok set) ↔ sequences ≠ [] ∧ sequences.Nodup := by
  constructor
  · intro hset
    obtain ⟨set, hset⟩ := hset
    obtain ⟨hempty, hnodup, -⟩ := ofList_eq_ok_iff.mp hset
    exact ⟨hempty, hnodup⟩
  · intro hlist
    obtain ⟨hempty, hnodup⟩ := hlist
    have hdistinct := Sequence.distinct_eq_sort hnodup
    have hsorted : (Sequence.sort sequences).Pairwise (· < ·) :=
      hdistinct ▸ Sequence.pairwise_lt_distinct sequences
    have hnonempty : Sequence.sort sequences ≠ [] := by
      intro hnil
      exact hempty (List.Perm.nil_eq (hnil ▸ Sequence.sort_perm sequences)).symm
    exact ⟨⟨name, Sequence.sort sequences, hsorted, hnonempty⟩,
      ofList_eq_ok_iff.mpr ⟨hempty, hnodup, rfl, rfl⟩⟩

/-- What becomes of a list, set or fault, does not depend on its order. -/
theorem ofList_eq_of_perm (hperm : left.Perm right) : ofList name left = ofList name right := by
  have hsort := Sequence.sort_eq_of_perm hperm
  have hdistinct : Sequence.distinct left = Sequence.distinct right := by
    rw [Sequence.distinct, Sequence.distinct, hsort]
  simp only [ofList, ofMembers?, hdistinct, hsort]

end StringSet

end EmojiPatterns
