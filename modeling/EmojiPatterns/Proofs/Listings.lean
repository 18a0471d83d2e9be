import EmojiPatterns.SequenceData

/-!
# What data files list

Each line of a data file lists some sequences under a name, or nothing.  After files without a fault
the data holds what their lines listed, gathered by name and otherwise in order.  Main statements:
`NamedLists.get?_ofEntries`, `SequenceData.sequences?_of_addFiles`.
-/

namespace EmojiPatterns

/-- All that entries list under a key, if there is any entry for it. -/
def listedUnder? {κ : Type} [DecidableEq κ] (key : κ) (entries : List (κ × List Sequence)) :
    Option (List Sequence) :=
  match entries.filter fun entry => entry.1 = key with
  | [] => none
  | found => some (found.flatMap (·.2))

section

variable {κ : Type} [DecidableEq κ] {key : κ}

@[simp]
theorem listedUnder?_nil : listedUnder? key [] = none := rfl

theorem listedUnder?_cons_of_ne {other : κ} (sequences : List Sequence)
    (entries : List (κ × List Sequence)) (hne : other ≠ key) :
    listedUnder? key ((other, sequences) :: entries) = listedUnder? key entries := by
  simp [listedUnder?, hne]

theorem listedUnder?_cons_self (sequences : List Sequence) (entries : List (κ × List Sequence)) :
    listedUnder? key ((key, sequences) :: entries) =
      some (sequences ++ (listedUnder? key entries).getD []) := by
  simp only [listedUnder?, List.filter_cons, decide_true, ↓reduceIte, List.flatMap_cons]
  cases entries.filter fun entry => entry.1 = key with
  | nil => rfl
  | cons entry rest => rfl

theorem listedUnder?_eq_none_iff {entries : List (κ × List Sequence)} :
    listedUnder? key entries = none ↔ ∀ entry ∈ entries, entry.1 ≠ key := by
  induction entries with
  | nil => simp
  | cons entry rest ih =>
    obtain ⟨other, sequences⟩ := entry
    by_cases hother : other = key
    · subst hother
      simp [listedUnder?_cons_self]
    · simp [listedUnder?_cons_of_ne, hother, ih]

theorem exists_mem_of_listedUnder? {entries : List (κ × List Sequence)}
    (hlisted : (listedUnder? key entries).isSome = true) : ∃ entry ∈ entries, entry.1 = key := by
  by_cases hentry : ∃ entry ∈ entries, entry.1 = key
  · exact hentry
  · have hnone : listedUnder? key entries = none := by
      apply listedUnder?_eq_none_iff.mpr
      intro entry hmem heq
      exact hentry ⟨entry, hmem, heq⟩
    simp [hnone] at hlisted

/-- Keys can be renamed, if different ones stay different. -/
theorem listedUnder?_map {ι : Type} [DecidableEq ι] {f : κ → ι}
    (hf : ∀ left right, f left = f right → left = right) (entries : List (κ × List Sequence)) :
    listedUnder? (f key) (entries.map fun entry => (f entry.1, entry.2)) =
      listedUnder? key entries := by
  induction entries with
  | nil => rfl
  | cons entry rest ih =>
    obtain ⟨other, sequences⟩ := entry
    rw [List.map_cons]
    by_cases hother : other = key
    · subst hother
      rw [listedUnder?_cons_self, listedUnder?_cons_self, ih]
    · have himage : f other ≠ f key := fun heq => hother (hf _ _ heq)
      rw [listedUnder?_cons_of_ne _ _ himage, listedUnder?_cons_of_ne _ _ hother, ih]

/-- What is listed under a key a portion at a time. -/
theorem listedUnder?_portions_append_self {β : Type} {f : β → List Sequence} {portions : List β}
    (hne : portions ≠ []) (entries : List (κ × List Sequence)) :
    listedUnder? key (portions.map (fun portion => (key, f portion)) ++ entries) =
      some (portions.flatMap f ++ (listedUnder? key entries).getD []) := by
  induction portions with
  | nil => exact absurd rfl hne
  | cons portion rest ih =>
    rw [List.map_cons, List.cons_append, listedUnder?_cons_self, List.flatMap_cons]
    by_cases hnil : rest = []
    · simp [hnil]
    · simp [ih hnil]

theorem listedUnder?_portions_append_of_ne {β : Type} (f : β → List Sequence) {other : κ}
    (hne : other ≠ key) (portions : List β) (entries : List (κ × List Sequence)) :
    listedUnder? key (portions.map (fun portion => (other, f portion)) ++ entries) =
      listedUnder? key entries := by
  induction portions with
  | nil => rfl
  | cons portion rest ih =>
    rw [List.map_cons, List.cons_append, listedUnder?_cons_of_ne _ _ hne, ih]

/-- Portions of lists are gathered to what the lists give, if no list is empty. -/
theorem listedUnder?_portions {β : Type} {f : β → List Sequence} {groups : List (κ × List β)}
    (hne : ∀ group ∈ groups, group.2 ≠ []) :
    listedUnder? key (groups.flatMap fun group => group.2.map fun portion =>
      (group.1, f portion)) =
      listedUnder? key (groups.map fun group => (group.1, group.2.flatMap f)) := by
  induction groups with
  | nil => rfl
  | cons group rest ih =>
    obtain ⟨hgroup, hrest⟩ := List.forall_mem_cons.mp hne
    obtain ⟨other, portions⟩ := group
    rw [List.flatMap_cons, List.map_cons]
    by_cases hother : other = key
    · subst hother
      rw [listedUnder?_portions_append_self hgroup, listedUnder?_cons_self, ih hrest]
    · rw [listedUnder?_portions_append_of_ne f hother, listedUnder?_cons_of_ne _ _ hother,
        ih hrest]

end

namespace NamedLists

theorem ne_of_nameLT {left right : String} (hlt : NameLT left right) : left ≠ right := by
  rintro rfl
  exact textLT_irrefl _ hlt

theorem listedUnder?_eq_none_of_nameLT {name : String} {entries : List (String × List Sequence)}
    (hbefore : ∀ entry ∈ entries, NameLT name entry.1) : listedUnder? name entries = none := by
  apply listedUnder?_eq_none_iff.mpr
  intro entry hmem
  exact (ne_of_nameLT (hbefore entry hmem)).symm

/-- Where the names ascend, the list of a name is all that is listed under it. -/
theorem lookup_eq_listedUnder? {name : String} {entries : List (String × List Sequence)}
    (hascending : entries.Pairwise fun left right => NameLT left.1 right.1) :
    entries.lookup name = listedUnder? name entries := by
  induction entries with
  | nil => rfl
  | cons entry rest ih =>
    obtain ⟨head, sequences⟩ := entry
    obtain ⟨hhead, hrest⟩ := List.pairwise_cons.mp hascending
    by_cases hname : head = name
    · subst hname
      rw [List.lookup_cons_self, listedUnder?_cons_self, listedUnder?_eq_none_of_nameLT hhead]
      simp
    · have hbeq : (name == head) = false := beq_false_of_ne (Ne.symm hname)
      rw [listedUnder?_cons_of_ne _ _ hname, List.lookup_cons, hbeq]
      exact ih hrest

theorem get?_eq_listedUnder? (lists : NamedLists) (name : String) :
    lists.get? name = listedUnder? name lists.entries :=
  lookup_eq_listedUnder? lists.ascending

theorem mem_entries_iff {lists : NamedLists} {name : String} {sequences : List Sequence} :
    (name, sequences) ∈ lists.entries ↔ lists.get? name = some sequences := by
  rw [get?, List.lookup_eq_some_iff]
  constructor
  · intro hmem
    obtain ⟨front, back, hentries⟩ := List.append_of_mem hmem
    refine ⟨front, back, hentries, ?_⟩
    intro entry hentry
    have hascending := lists.ascending
    rw [hentries, List.pairwise_append] at hascending
    exact bne_iff_ne.mpr
      (ne_of_nameLT (hascending.2.2 entry hentry _ List.mem_cons_self)).symm
  · intro hlookup
    obtain ⟨front, back, hentries, -⟩ := hlookup
    rw [hentries]
    exact List.mem_append_right front List.mem_cons_self

/-- Lists are what they hold for each name. -/
theorem ext_get? {left right : NamedLists} (hget : ∀ name, left.get? name = right.get? name) :
    left = right := by
  have hnodup : ∀ lists : NamedLists, lists.entries.Nodup := by
    intro lists
    apply lists.ascending.imp
    rintro entry _ hlt rfl
    exact textLT_irrefl _ hlt
  have hperm : left.entries.Perm right.entries := by
    apply (List.perm_ext_iff_of_nodup (hnodup left) (hnodup right)).mpr
    intro entry
    obtain ⟨name, sequences⟩ := entry
    rw [mem_entries_iff, mem_entries_iff, hget]
  have hentries : left.entries = right.entries := by
    apply hperm.eq_of_pairwise _ left.ascending right.ascending
    intro first second _ _ hlt hgt
    exact absurd hgt (textLT_asymm hlt)
  cases left
  cases right
  simp_all

theorem listedUnder?_extend_self {name : String} {sequences : List Sequence}
    {entries : List (String × List Sequence)}
    (hascending : entries.Pairwise fun left right => NameLT left.1 right.1) :
    listedUnder? name (extend name sequences entries) =
      some ((listedUnder? name entries).getD [] ++ sequences) := by
  induction entries with
  | nil => simp [extend, listedUnder?_cons_self]
  | cons entry rest ih =>
    obtain ⟨head, listed⟩ := entry
    obtain ⟨hhead, hrest⟩ := List.pairwise_cons.mp hascending
    rw [extend]
    split
    · next hlt =>
      have hbefore : ∀ entry ∈ (head, listed) :: rest, NameLT name entry.1 := by
        rw [List.forall_mem_cons]
        refine ⟨hlt, ?_⟩
        intro entry hmem
        exact nameLT_trans hlt (hhead entry hmem)
      rw [listedUnder?_cons_self, listedUnder?_eq_none_of_nameLT hbefore]
      simp
    · split
      · next heq =>
        subst heq
        rw [listedUnder?_cons_self, listedUnder?_cons_self,
          listedUnder?_eq_none_of_nameLT hhead]
        simp
      · next hne =>
        rw [listedUnder?_cons_of_ne _ _ (Ne.symm hne), listedUnder?_cons_of_ne _ _ (Ne.symm hne),
          ih hrest]

theorem listedUnder?_extend_of_ne {name other : String} {sequences : List Sequence}
    (entries : List (String × List Sequence)) (hne : name ≠ other) :
    listedUnder? other (extend name sequences entries) = listedUnder? other entries := by
  induction entries with
  | nil => exact listedUnder?_cons_of_ne sequences [] hne
  | cons entry rest ih =>
    obtain ⟨head, listed⟩ := entry
    rw [extend]
    split
    · exact listedUnder?_cons_of_ne _ _ hne
    · split
      · next heq =>
        subst heq
        rw [listedUnder?_cons_of_ne _ _ hne, listedUnder?_cons_of_ne _ _ hne]
      · by_cases hhead : head = other
        · subst hhead
          rw [listedUnder?_cons_self, listedUnder?_cons_self, ih]
        · rw [listedUnder?_cons_of_ne _ _ hhead, listedUnder?_cons_of_ne _ _ hhead, ih]

theorem get?_append_self (lists : NamedLists) (name : String) (sequences : List Sequence) :
    (lists.append name sequences).get? name = some ((lists.get? name).getD [] ++ sequences) := by
  rw [get?_eq_listedUnder?, get?_eq_listedUnder?]
  exact listedUnder?_extend_self lists.ascending

theorem get?_append_of_ne (lists : NamedLists) {name other : String} (hne : name ≠ other)
    (sequences : List Sequence) : (lists.append name sequences).get? other = lists.get? other := by
  rw [get?_eq_listedUnder?, get?_eq_listedUnder?]
  exact listedUnder?_extend_of_ne lists.entries hne

/-- Appends the sequences of several entries. -/
def appendAll (lists : NamedLists) (entries : List (String × List Sequence)) : NamedLists :=
  entries.foldl (fun lists (name, sequences) => lists.append name sequences) lists

theorem appendAll_append (lists : NamedLists) (front back : List (String × List Sequence)) :
    lists.appendAll (front ++ back) = (lists.appendAll front).appendAll back :=
  List.foldl_append

theorem get?_appendAll (lists : NamedLists) (entries : List (String × List Sequence))
    (name : String) :
    (lists.appendAll entries).get? name =
      match listedUnder? name entries with
      | none => lists.get? name
      | some more => some ((lists.get? name).getD [] ++ more) := by
  induction entries generalizing lists with
  | nil => rfl
  | cons entry rest ih =>
    obtain ⟨head, sequences⟩ := entry
    rw [appendAll, List.foldl_cons]
    change ((lists.append head sequences).appendAll rest).get? name = _
    rw [ih]
    by_cases hhead : head = name
    · subst hhead
      rw [listedUnder?_cons_self, get?_append_self]
      cases listedUnder? head rest with
      | none => simp
      | some more => simp
    · rw [listedUnder?_cons_of_ne _ _ hhead, get?_append_of_ne _ hhead]

/-- Lists made of entries hold what these list under each name. -/
theorem get?_ofEntries (entries : List (String × List Sequence)) (name : String) :
    (ofEntries entries).get? name = listedUnder? name entries := by
  have hall := get?_appendAll empty entries name
  change (empty.appendAll entries).get? name = _
  rw [hall]
  cases listedUnder? name entries with
  | none => rfl
  | some more => rfl

end NamedLists

/-- What a line lists. -/
def DataLine.listing (line : List Char) : List (String × List Sequence) :=
  match read line with
  | .ok (.entry name field) => [(name, (FieldReading.ofField field).sequences)]
  | _ => []

namespace SequenceData

/-- What the lines of several files list, one after another. -/
def listing (files : List (List Char)) : List (String × List Sequence) :=
  files.flatMap fun file => (linesOf file).flatMap DataLine.listing

/-- Adds several files up to the first with a fault. -/
def addFiles (data : SequenceData) : List (List Char) → SequenceData × Option DataError
  | [] => (data, none)
  | file :: rest =>
    match data.addFile file with
    | (data, none) => data.addFiles rest
    | (data, some error) => (data, some error)

/-- A line adds what it lists, and keeps it even if its field has a fault. -/
theorem lists_addLine (data : SequenceData) (number : Nat) (line : List Char) :
    (data.addLine number line).1.lists = data.lists.appendAll (DataLine.listing line) := by
  rw [addLine, DataLine.listing]
  split
  · next hread => rw [hread]; rfl
  · next hread => rw [hread]; rfl
  · next version hread =>
    rw [hread]
    rw [declare]
    split
    · rfl
    · split
      · rfl
      · rfl
  · next hread => rw [hread]; rfl

theorem lists_of_addLines {data after : SequenceData} {number : Nat} {lines : List (List Char)}
    (hlines : data.addLines number lines = (after, none)) :
    after.lists = data.lists.appendAll (lines.flatMap DataLine.listing) := by
  induction lines generalizing data number with
  | nil =>
    cases hlines
    rfl
  | cons line rest ih =>
    have hline := lists_addLine data number line
    rw [addLines] at hlines
    split at hlines
    · next next hstep =>
      rw [hstep] at hline
      rw [ih hlines, hline, List.flatMap_cons, NamedLists.appendAll_append]
    · simp at hlines

/-- Files without a fault add what their lines list. -/
theorem lists_of_addFiles {data after : SequenceData} {files : List (List Char)}
    (hfiles : data.addFiles files = (after, none)) :
    after.lists = data.lists.appendAll (listing files) := by
  induction files generalizing data with
  | nil =>
    cases hfiles
    rfl
  | cons file rest ih =>
    rw [addFiles] at hfiles
    split at hfiles
    · next next hstep =>
      have hfile := lists_of_addLines hstep
      rw [ih hfiles, hfile, ← NamedLists.appendAll_append]
      rfl
    · simp at hfiles

/-- After files without a fault the data lists what their lines list under each name. -/
theorem sequences?_of_addFiles {data : SequenceData} {files : List (List Char)}
    (hfiles : empty.addFiles files = (data, none)) (name : String) :
    data.sequences? name = listedUnder? name (listing files) := by
  rw [sequences?, lists_of_addFiles hfiles]
  exact NamedLists.get?_ofEntries (listing files) name

end SequenceData

end EmojiPatterns
