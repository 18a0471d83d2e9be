import EmojiPatterns.Proofs.SoundLines
import EmojiPatterns.Proofs.TableHistories

/-!
# Arrangements of lines

However the lines of data files are arranged, within a file or between files, they can be added all
or not, they declare the same version, and they list the same sequences for each name up to the
order.  Sets forget that order, and so the tables are the same.  Main statement:
`SequenceData.loading_ignores_arrangement`.
-/

namespace EmojiPatterns

/-- Lists that are told apart by their order at most are gathered up to the order. -/
theorem listedUnder?_rel_of_perm {κ : Type} [DecidableEq κ] (key : κ)
    {left right : List (κ × List Sequence)} (hperm : left.Perm right) :
    Option.Rel List.Perm (listedUnder? key left) (listedUnder? key right) := by
  have hfound := hperm.filter fun entry => decide (entry.1 = key)
  rw [listedUnder?, listedUnder?]
  cases hleft : left.filter fun entry => decide (entry.1 = key) with
  | nil =>
    rw [hleft] at hfound
    rw [hfound.nil_eq.symm]
    exact .none
  | cons first front =>
    cases hright : right.filter fun entry => decide (entry.1 = key) with
    | nil =>
      rw [hleft, hright] at hfound
      exact absurd hfound.eq_nil (List.cons_ne_nil first front)
    | cons second back =>
      rw [hleft, hright] at hfound
      exact .some (hfound.flatMap_right _)

namespace NamedLists

variable {lists others : NamedLists} {order reorder : List StringProperty} {version : Version}

theorem isSome_get?_iff {name : String} :
    (lists.get? name).isSome = true ↔ ∃ entry ∈ lists.entries, entry.1 = name := by
  rw [get?, List.lookup_isSome_iff]
  simp only [beq_iff_eq, @eq_comm _ name]

/-- A name is the least that is listed and no name of a property. -/
structure LeastUnknown (lists : NamedLists) (name : String) : Prop where
  unknown : StringProperty.ofName? name = none
  listed : (lists.get? name).isSome = true
  least : ∀ other, StringProperty.ofName? other = none → (lists.get? other).isSome = true →
    ¬ NameLT other name

theorem LeastUnknown.unique {first second : String} (hfirst : LeastUnknown lists first)
    (hsecond : LeastUnknown lists second) : first = second := by
  rcases nameLT_trichotomy first second with hlt | heq | hgt
  · exact absurd hlt (hsecond.least first hfirst.unknown hfirst.listed)
  · exact heq
  · exact absurd hgt (hfirst.least second hsecond.unknown hsecond.listed)

/-- Where some listed name is unknown, the least of them is reported. -/
theorem exists_leastUnknown (order : List StringProperty) (version : Version) {name : String}
    (hname : StringProperty.ofName? name = none) (hlisted : (lists.get? name).isSome = true) :
    ∃ least, LeastUnknown lists least ∧
      lists.tableInOrder order version = .error (.unsupportedProperty least) := by
  obtain ⟨listed, hmem, rfl⟩ := isSome_get?_iff.mp hlisted
  obtain ⟨entry, hentry, hunknown, hleast, herror⟩ :=
    TableBuilder.insertAll_eq_error (.empty version) lists.ascending ⟨listed, hmem, hname⟩
  refine ⟨entry.1, ⟨hunknown, isSome_get?_iff.mpr ⟨entry, hentry, rfl⟩, ?_⟩, ?_⟩
  · intro other hother hsome
    obtain ⟨second, hsecond, rfl⟩ := isSome_get?_iff.mp hsome
    exact hleast second hsecond hother
  · rw [tableInOrder, herror]

/-- Where all names are known, the lists are told to a builder one after another. -/
theorem exists_calls_of_known (version : Version)
    (hknown : ¬ ∃ name, StringProperty.ofName? name = none ∧ (lists.get? name).isSome = true) :
    ∃ calls, (∀ order, lists.tableInOrder order version =
        (TableBuilder.run version calls).buildInOrder order) ∧
      (TableBuilder.run version calls).listed? = fun property => lists.get? property.name := by
  have hnames : ∀ entry ∈ lists.entries,
      ∃ property, StringProperty.name property = entry.1 := by
    intro entry hmem
    obtain ⟨property, hproperty⟩ := Option.ne_none_iff_exists'.mp fun hnone =>
      hknown ⟨entry.1, hnone, isSome_get?_iff.mpr ⟨entry, hmem, rfl⟩⟩
    exact ⟨property, StringProperty.ofName?_eq_some_iff.mp hproperty⟩
  have hinsert := TableBuilder.insertAll_eq_ok (.empty version) hnames
  refine ⟨lists.entries.map fun entry => .insertNamed entry.1 entry.2, ?_, ?_⟩
  · intro order
    rw [tableInOrder, hinsert]
    rfl
  · funext property
    rw [get?_eq_listedUnder?]
    exact TableBuilder.listed?_of_insertAll hinsert property

/-- Lists that are told apart by their order at most give the same table or the same fault. -/
theorem tableInOrder_eq_of_rel
    (hrel : ∀ name, Option.Rel List.Perm (lists.get? name) (others.get? name)) :
    lists.tableInOrder order version = others.tableInOrder order version := by
  have hsome : ∀ name, (lists.get? name).isSome = (others.get? name).isSome :=
    fun name => TableBuilder.isSome_eq_of_rel (hrel name)
  -- The names are looked at before any set is made, so an unknown one settles the outcome.
  by_cases hunknown :
      ∃ name, StringProperty.ofName? name = none ∧ (lists.get? name).isSome = true
  · obtain ⟨name, hname, hlisted⟩ := hunknown
    obtain ⟨first, hfirst, hleft⟩ := exists_leastUnknown order version hname hlisted
    obtain ⟨second, hsecond, hright⟩ :=
      exists_leastUnknown order version hname ((hsome name).symm.trans hlisted)
    have hsame : LeastUnknown others first :=
      ⟨hfirst.unknown, (hsome first).symm.trans hfirst.listed,
        fun other hother hlisted => hfirst.least other hother ((hsome other).trans hlisted)⟩
    rw [hleft, hright, hsame.unique hsecond]
  · obtain ⟨left, hleft, hleftListed⟩ := exists_calls_of_known version hunknown
    simp only [hsome] at hunknown
    obtain ⟨right, hright, hrightListed⟩ := exists_calls_of_known version hunknown
    rw [hleft, hright]
    apply TableBuilder.buildInOrder_eq_of_rel
    · rw [TableBuilder.version_run, TableBuilder.version_run]
    · intro property
      rw [hleftListed, hrightListed]
      exact hrel property.name

/-- The order in which sets are made shows at most in which of several malformed ones is named. -/
theorem tableInOrder_sameOutcome (lists : NamedLists) (version : Version)
    (horder : ∀ property, property ∈ order) (hreorder : ∀ property, property ∈ reorder) :
    SameOutcome (OneMalformed fun property => lists.get? property.name)
      (lists.tableInOrder order version) (lists.tableInOrder reorder version) := by
  by_cases hunknown :
      ∃ name, StringProperty.ofName? name = none ∧ (lists.get? name).isSome = true
  · obtain ⟨name, hname, hlisted⟩ := hunknown
    obtain ⟨first, hfirst, hleft⟩ := exists_leastUnknown order version hname hlisted
    obtain ⟨second, hsecond, hright⟩ := exists_leastUnknown reorder version hname hlisted
    rw [hleft, hright, hfirst.unique hsecond]
    exact .faults fun _ => rfl
  · obtain ⟨calls, hbuild, hlisted⟩ := exists_calls_of_known version hunknown
    rw [hbuild, hbuild, ← hlisted]
    exact TableBuilder.buildInOrder_sameOutcome version calls horder hreorder

end NamedLists

namespace SequenceData

/-- The table of the data, where the sets are made in a given order. -/
def tableInOrder (data : SequenceData) (order : List StringProperty) (version : Version) :
    Except DataError Table :=
  match data.version with
  | none => data.lists.tableInOrder order version
  | some found =>
    if found = version then data.lists.tableInOrder order version
    else .error (.versionMismatch version found)

theorem table_eq_tableInOrder (data : SequenceData) (version : Version) :
    data.table version = data.tableInOrder StringProperty.all version := rfl

theorem tableInOrder_sameOutcome (data : SequenceData) (version : Version)
    {order reorder : List StringProperty} (horder : ∀ property, property ∈ order)
    (hreorder : ∀ property, property ∈ reorder) :
    SameOutcome (OneMalformed fun property => data.sequences? property.name)
      (data.tableInOrder order version) (data.tableInOrder reorder version) := by
  have hlists := data.lists.tableInOrder_sameOutcome version horder hreorder
  rw [tableInOrder, tableInOrder]
  cases data.version with
  | none => exact hlists
  | some found =>
    by_cases hfound : found = version
    · simp only [hfound, ↓reduceIte]
      exact hlists
    · simpa [hfound] using .faults fun _ => rfl

/-! ### Rearranged files -/

section

variable {files : List (List (List Char))} (hlines : ∀ line ∈ files.flatten, '\n' ∉ line)

include hlines

/-- Files of joined lines have together what is in these lines. -/
theorem flatMap_linesOf_files {β : Type} {f : List Char → List β}
    (hreturn : ∀ line, f (dropReturn line) = f line) (hnil : f [] = []) :
    ((files.map joinLines).flatMap linesOf).flatMap f = files.flatten.flatMap f := by
  induction files with
  | nil => rfl
  | cons file rest ih =>
    rw [List.flatten_cons, List.forall_mem_append] at hlines
    rw [List.map_cons, List.flatMap_cons, List.flatMap_append, List.flatten_cons,
      List.flatMap_append, flatMap_linesOf_joined hreturn hnil hlines.1, ih hlines.2]

theorem faults_files : ((files.map joinLines).flatMap linesOf).flatMap DataLine.faults =
    files.flatten.flatMap DataLine.faults :=
  flatMap_linesOf_files hlines
    (fun line => by rw [DataLine.faults, DataLine.read_dropReturn]; rfl) rfl

theorem versions_files : ((files.map joinLines).flatMap linesOf).flatMap DataLine.versions =
    files.flatten.flatMap DataLine.versions :=
  flatMap_linesOf_files hlines
    (fun line => by rw [DataLine.versions, DataLine.read_dropReturn]; rfl) rfl

theorem listing_files : listing (files.map joinLines) =
    files.flatten.flatMap DataLine.listing := by
  rw [listing, ← List.flatMap_assoc]
  exact flatMap_linesOf_files hlines
    (fun line => by rw [DataLine.listing, DataLine.read_dropReturn]; rfl) rfl

/-- Files of joined lines can be added if no line has a fault and no two versions differ. -/
theorem snd_addFiles_joined_eq_none_iff :
    (empty.addFiles (files.map joinLines)).2 = none ↔
      files.flatten.flatMap DataLine.faults = [] ∧
        SameVersion (files.flatten.flatMap DataLine.versions) := by
  rw [snd_addFiles_eq_none_iff, faults_files hlines, versions_files hlines]
  rfl

theorem version_eq_some_iff_of_addFiles_joined {data : SequenceData}
    (hfiles : empty.addFiles (files.map joinLines) = (data, none)) (version : Version) :
    data.version = some version ↔ version ∈ files.flatten.flatMap DataLine.versions := by
  rw [← Option.mem_toList, mem_version_of_addLines (addFiles_eq_none_iff.mp hfiles),
    versions_files hlines]
  rfl

end

/-- However lines are rearranged, within and between files, they can be added all or not, and then
the data gives the same table or the same fault for every version.  In which order the sets are made
matters only where several are malformed: then any of them may be the one that is named. -/
theorem loading_ignores_arrangement {files others : List (List (List Char))}
    (hlines : ∀ line ∈ files.flatten, '\n' ∉ line)
    (harranged : others.flatten.Perm files.flatten) :
    ((empty.addFiles (files.map joinLines)).2 = none ↔
      (empty.addFiles (others.map joinLines)).2 = none) ∧
    ∀ data other, empty.addFiles (files.map joinLines) = (data, none) →
      empty.addFiles (others.map joinLines) = (other, none) →
      ∀ version, data.table version = other.table version ∧
        ∀ order reorder, order.Perm StringProperty.all → reorder.Perm StringProperty.all →
          SameOutcome (OneMalformed fun property => data.sequences? property.name)
            (data.tableInOrder order version) (other.tableInOrder reorder version) := by
  have hotherLines : ∀ line ∈ others.flatten, '\n' ∉ line :=
    fun line hmem => hlines line (harranged.mem_iff.mp hmem)
  constructor
  · have hfaults := harranged.flatMap_right DataLine.faults
    have hversions := harranged.flatMap_right DataLine.versions
    rw [snd_addFiles_joined_eq_none_iff hlines, snd_addFiles_joined_eq_none_iff hotherLines,
      sameVersion_congr fun _ => hversions.mem_iff, ← List.isEmpty_iff, ← List.isEmpty_iff,
      hfaults.isEmpty_eq]
  · intro data other hdata hother version
    have hversion : data.version = other.version := by
      apply Option.ext
      intro found
      rw [version_eq_some_iff_of_addFiles_joined hlines hdata,
        version_eq_some_iff_of_addFiles_joined hotherLines hother,
        (harranged.flatMap_right DataLine.versions).mem_iff]
    have hrel : ∀ name, Option.Rel List.Perm (data.sequences? name) (other.sequences? name) := by
      intro name
      rw [sequences?_of_addFiles hdata, sequences?_of_addFiles hother, listing_files hlines,
        listing_files hotherLines]
      exact listedUnder?_rel_of_perm name (harranged.flatMap_right _).symm
    have hsame : ∀ order, data.tableInOrder order version = other.tableInOrder order version := by
      intro order
      rw [tableInOrder, tableInOrder, hversion, NamedLists.tableInOrder_eq_of_rel hrel]
    constructor
    · rw [table_eq_tableInOrder, table_eq_tableInOrder, hsame]
    · intro order reorder horder hreorder
      rw [← hsame reorder]
      exact data.tableInOrder_sameOutcome version (StringProperty.mem_of_perm_all horder)
        (StringProperty.mem_of_perm_all hreorder)

/-- Two keycaps and a version, on three lines in two files. -/
theorem loading_ignores_arrangement_keycaps :
    ∃ data other,
      empty.addFiles ([["# Version: 15.1".toList, "23 20E3 ; Emoji_Keycap_Sequence".toList],
        ["2A 20E3 ; Emoji_Keycap_Sequence\r".toList]].map joinLines) = (data, none) ∧
      empty.addFiles ([["2A 20E3 ; Emoji_Keycap_Sequence\r".toList],
        ["23 20E3 ; Emoji_Keycap_Sequence".toList, "# Version: 15.1".toList]].map joinLines) =
          (other, none) ∧
      data ≠ other ∧ data.table .pinned = other.table .pinned ∧
      SameOutcome (OneMalformed fun property => data.sequences? property.name)
        (data.tableInOrder StringProperty.all .pinned)
        (other.tableInOrder StringProperty.all.reverse .pinned) := by
  obtain ⟨hboth, hload⟩ := @loading_ignores_arrangement
    [["# Version: 15.1".toList, "23 20E3 ; Emoji_Keycap_Sequence".toList],
      ["2A 20E3 ; Emoji_Keycap_Sequence\r".toList]]
    [["2A 20E3 ; Emoji_Keycap_Sequence\r".toList],
      ["23 20E3 ; Emoji_Keycap_Sequence".toList, "# Version: 15.1".toList]]
    (by decide +kernel) (by decide +kernel)
  have hfiles := hboth.mpr (by decide +kernel)
  have hothers := hboth.mp hfiles
  have htables := hload _ _ (Prod.ext rfl hfiles) (Prod.ext rfl hothers) .pinned
  exact ⟨_, _, Prod.ext rfl hfiles, Prod.ext rfl hothers, by decide +kernel, htables.1,
    htables.2 _ _ (List.Perm.refl _) (List.reverse_perm StringProperty.all)⟩

end SequenceData

end EmojiPatterns
