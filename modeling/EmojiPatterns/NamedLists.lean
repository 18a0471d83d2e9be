import EmojiPatterns.Sequence

/-!
# Named lists of sequences

Raw data gives each name a list of sequences, in the order in which they were found and with
repeats.  The names are kept in ascending order, each once.
-/

namespace EmojiPatterns

/-- Lists of sequences under ascending names. -/
structure NamedLists where
  entries : List (String × List Sequence)
  ascending : entries.Pairwise fun left right => NameLT left.1 right.1
deriving DecidableEq

namespace NamedLists

def empty : NamedLists :=
  ⟨[], .nil⟩

/-- Appends sequences to the list of a name, which is added if it is not there yet. -/
def extend (name : String) (sequences : List Sequence) :
    List (String × List Sequence) → List (String × List Sequence)
  | [] => [(name, sequences)]
  | (head, listed) :: rest =>
    if NameLT name head then (name, sequences) :: (head, listed) :: rest
    else if name = head then (head, listed ++ sequences) :: rest
    else (head, listed) :: extend name sequences rest

theorem mem_names_extend {name : String} {sequences : List Sequence}
    {entries : List (String × List Sequence)} {entry : String × List Sequence}
    (hmem : entry ∈ extend name sequences entries) :
    entry.1 = name ∨ ∃ old ∈ entries, old.1 = entry.1 := by
  induction entries with
  | nil => simp_all [extend]
  | cons head rest ih =>
    unfold extend at hmem
    split at hmem
    · rcases List.mem_cons.mp hmem with rfl | hmem
      · exact .inl rfl
      · exact .inr ⟨entry, hmem, rfl⟩
    · split at hmem
      · next hname =>
        rcases List.mem_cons.mp hmem with rfl | hmem
        · exact .inl hname.symm
        · exact .inr ⟨entry, List.mem_cons_of_mem _ hmem, rfl⟩
      · rcases List.mem_cons.mp hmem with rfl | hmem
        · exact .inr ⟨_, List.mem_cons_self, rfl⟩
        · rcases ih hmem with hname | ⟨old, hold, hname⟩
          · exact .inl hname
          · exact .inr ⟨old, List.mem_cons_of_mem _ hold, hname⟩

theorem pairwise_extend {name : String} {sequences : List Sequence}
    {entries : List (String × List Sequence)}
    (hascending : entries.Pairwise fun left right => NameLT left.1 right.1) :
    (extend name sequences entries).Pairwise fun left right => NameLT left.1 right.1 := by
  induction entries with
  | nil => exact List.pairwise_singleton _ _
  | cons head rest ih =>
    obtain ⟨hhead, hrest⟩ := List.pairwise_cons.mp hascending
    unfold extend
    split
    · next hlt =>
      refine List.pairwise_cons.mpr ⟨?_, hascending⟩
      intro entry hmem
      rcases List.mem_cons.mp hmem with rfl | hmem
      · exact hlt
      · exact nameLT_trans hlt (hhead entry hmem)
    · next hnlt =>
      split
      · exact List.pairwise_cons.mpr ⟨hhead, hrest⟩
      · next hne =>
        refine List.pairwise_cons.mpr ⟨?_, ih hrest⟩
        intro entry hmem
        rcases mem_names_extend hmem with hname | ⟨old, hold, hname⟩
        · rw [hname]
          rcases nameLT_trichotomy name head.1 with hlt | heq | hgt
          · exact absurd hlt hnlt
          · exact absurd heq hne
          · exact hgt
        · rw [← hname]
          exact hhead old hold

/-- Appends sequences to the list of a name. -/
def append (lists : NamedLists) (name : String) (sequences : List Sequence) : NamedLists :=
  ⟨extend name sequences lists.entries, pairwise_extend lists.ascending⟩

/-- The lists of the given entries, with those of one name joined. -/
def ofEntries (entries : List (String × List Sequence)) : NamedLists :=
  entries.foldl (fun lists (name, sequences) => lists.append name sequences) empty

/-- The list of a name. -/
def get? (lists : NamedLists) (name : String) : Option (List Sequence) :=
  lists.entries.lookup name

end NamedLists

end EmojiPatterns
