import EmojiPatterns.Proofs.Listings

/-!
# Sets of tables

A table that is made of lists holds a set for each listed name, with the sequences that are listed
under it, and a union of all sets where `RGI_Emoji` is not listed itself.  Main statements:
`SequenceData.lookup?_of_table`, `SequenceData.lookup?_rgiEmoji_of_table`.
-/

namespace EmojiPatterns

namespace StringSet

theorem sequences_of_ofMembers? {name : String} {sequences : List Sequence} {set : StringSet}
    (hset : ofMembers? name sequences = some set) :
    set.sequences = Sequence.distinct sequences := by
  rw [ofMembers?] at hset
  split at hset
  · cases hset
    rfl
  · simp at hset

theorem isSome_ofMembers? {name : String} {sequences : List Sequence} (hne : sequences ≠ []) :
    (ofMembers? name sequences).isSome = true := by
  obtain ⟨sequence, hmem⟩ := List.exists_mem_of_ne_nil sequences hne
  have hdistinct := Sequence.mem_distinct.mpr hmem
  rw [ofMembers?, dif_pos (List.ne_nil_of_mem hdistinct)]
  rfl

theorem ofList_singleton (name : String) (sequence : Sequence) :
    ofList name [sequence] =
      .ok ⟨name, [sequence], List.pairwise_singleton _ _, List.cons_ne_nil _ _⟩ := by
  have hsort : Sequence.sort [sequence] = [sequence] := List.mergeSort_singleton sequence
  have hdistinct : Sequence.distinct [sequence] = [sequence] := by
    rw [Sequence.distinct, hsort]
    rfl
  simp [ofList, ofMembers?, hdistinct, hsort, Sequence.firstRepeat?]

/-- The set of a list has the listed members. -/
theorem mem_of_ofList {name : String} {sequences : List Sequence} {set : StringSet}
    (hset : ofList name sequences = .ok set) {sequence : Sequence} :
    sequence ∈ set.sequences ↔ sequence ∈ sequences := by
  rw [ofList] at hset
  split at hset
  · simp at hset
  · next found hmembers =>
    split at hset
    · simp at hset
    · cases hset
      rw [sequences_of_ofMembers? hmembers]
      exact Sequence.mem_distinct

end StringSet

namespace TableBuilder

variable {builder : TableBuilder} {property : StringProperty}

/-- Entries are listed for the properties that they name. -/
theorem portions_of_insertAll {entries : List (String × List Sequence)} {after : TableBuilder}
    (hinsert : builder.insertAll entries = .ok after) :
    ∃ placed : List (StringProperty × List Sequence),
      after.portions = builder.portions ++ placed ∧
        entries = placed.map fun portion => (portion.1.name, portion.2) := by
  induction entries generalizing builder with
  | nil =>
    cases hinsert
    exact ⟨[], (List.append_nil _).symm, rfl⟩
  | cons entry rest ih =>
    obtain ⟨name, sequences⟩ := entry
    rw [insertAll, insertNamed] at hinsert
    cases hname : StringProperty.ofName? name with
    | none => simp [hname] at hinsert
    | some property =>
      rw [hname] at hinsert
      obtain ⟨placed, hportions, hentries⟩ := ih hinsert
      refine ⟨(property, sequences) :: placed, ?_, ?_⟩
      · rw [hportions, insert, List.append_assoc]
        rfl
      · rw [List.map_cons, ← hentries, StringProperty.ofName?_eq_some_iff.mp hname]

theorem listed?_eq_listedUnder? (builder : TableBuilder) (property : StringProperty) :
    builder.listed? property = listedUnder? property builder.portions := by
  rw [listed?, listedUnder?]
  cases builder.portions.filter fun portion => portion.1 = property with
  | nil => rfl
  | cons portion rest => rfl

/-- What a builder lists after entries is what they list under the name of the property. -/
theorem listed?_of_insertAll {version : Version} {entries : List (String × List Sequence)}
    (hinsert : (empty version).insertAll entries = .ok builder) (property : StringProperty) :
    builder.listed? property = listedUnder? property.name entries := by
  obtain ⟨placed, hportions, hentries⟩ := portions_of_insertAll hinsert
  rw [listed?_eq_listedUnder?, hportions, hentries]
  exact (listedUnder?_map (fun _ _ => StringProperty.name_injective) placed).symm

/-- Making sets takes one property after another, and none of the lists is refused. -/
theorem sets_cons {head : StringProperty} {rest : List StringProperty}
    {entries : List (StringProperty × StringSet)}
    (hsets : builder.sets (head :: rest) = .ok entries) :
    (builder.listed? head = none ∧ builder.sets rest = .ok entries) ∨
      ∃ sequences set more, builder.listed? head = some sequences ∧
        StringSet.ofList head.name sequences = .ok set ∧ builder.sets rest = .ok more ∧
          entries = (head, set) :: more := by
  rw [sets] at hsets
  cases hlisted : builder.listed? head with
  | none =>
    simp only [hlisted] at hsets
    exact .inl ⟨rfl, hsets⟩
  | some sequences =>
    cases hset : StringSet.ofList head.name sequences with
    | error error => simp [hlisted, hset] at hsets
    | ok set =>
      cases hrest : builder.sets rest with
      | error error =>
        simp only [hlisted, hset, hrest] at hsets
        cases hsets
      | ok more =>
        simp only [hlisted, hset, hrest] at hsets
        cases hsets
        exact .inr ⟨sequences, set, more, rfl, hset, rfl, rfl⟩

/-- The sets that are made are those of the lists. -/
theorem mem_sets_iff {properties : List StringProperty}
    {entries : List (StringProperty × StringSet)} (hsets : builder.sets properties = .ok entries) {set : StringSet} :
    (property, set) ∈ entries ↔ property ∈ properties ∧
      ∃ sequences, builder.listed? property = some sequences ∧
        StringSet.ofList property.name sequences = .ok set := by
  induction properties generalizing entries with
  | nil =>
    cases hsets
    simp
  | cons head rest ih =>
    rcases sets_cons hsets with ⟨hnone, hrest⟩ | ⟨listed, first, more, hlisted, hfirst, hrest, rfl⟩
    · rw [ih hrest, List.mem_cons]
      constructor
      · rintro ⟨hmem, hset⟩
        exact ⟨.inr hmem, hset⟩
      · rintro ⟨rfl | hmem, sequences, hsome, hset⟩
        · simp [hnone] at hsome
        · exact ⟨hmem, sequences, hsome, hset⟩
    · rw [List.mem_cons, List.mem_cons, ih hrest]
      constructor
      · rintro (heq | ⟨hmem, hset⟩)
        · cases heq
          exact ⟨.inl rfl, listed, hlisted, hfirst⟩
        · exact ⟨.inr hmem, hset⟩
      · rintro ⟨rfl | hmem, sequences, hsome, hset⟩
        · obtain rfl : listed = sequences := Option.some.inj (hlisted.symm.trans hsome)
          obtain rfl : first = set := Except.ok.inj (hfirst.symm.trans hset)
          exact .inl rfl
        · exact .inr ⟨hmem, sequences, hsome, hset⟩

/-- Where making sets succeeds, every list has one. -/
theorem exists_mem_sets {properties : List StringProperty}
    {entries : List (StringProperty × StringSet)} (hsets : builder.sets properties = .ok entries)
    (hmem : property ∈ properties) {sequences : List Sequence}
    (hlisted : builder.listed? property = some sequences) :
    ∃ set, (property, set) ∈ entries ∧ StringSet.ofList property.name sequences = .ok set := by
  induction properties generalizing entries with
  | nil => cases hmem
  | cons head rest ih =>
    rcases sets_cons hsets with ⟨hnone, hrest⟩ | ⟨listed, first, more, hsome, hfirst, hrest, rfl⟩
    · rcases List.mem_cons.mp hmem with rfl | hmem
      · simp [hnone] at hlisted
      · exact ih hrest hmem
    · rcases List.mem_cons.mp hmem with rfl | hmem
      · obtain rfl : listed = sequences := Option.some.inj (hsome.symm.trans hlisted)
        exact ⟨first, List.mem_cons_self, hfirst⟩
      · obtain ⟨set, hset, hlist⟩ := ih hrest hmem
        exact ⟨set, List.mem_cons_of_mem _ hset, hlist⟩

/-- A set that is made is what is found for its property, since no property has two. -/
theorem lookup_of_sets {properties : List StringProperty}
    {entries : List (StringProperty × StringSet)} (hsets : builder.sets properties = .ok entries)
    {set : StringSet} (hmem : (property, set) ∈ entries) : entries.lookup property = some set := by
  have hsome : (entries.lookup property).isSome = true := by
    rw [List.lookup_isSome_iff]
    exact ⟨_, hmem, beq_self_eq_true property⟩
  obtain ⟨found, hfound⟩ := Option.isSome_iff_exists.mp hsome
  obtain ⟨front, back, hentries, -⟩ := List.lookup_eq_some_iff.mp hfound
  have hother : (property, found) ∈ entries := by simp [hentries]
  obtain ⟨-, sequences, hlisted, hset⟩ := (mem_sets_iff hsets).mp hmem
  obtain ⟨-, others, hothers, hsame⟩ := (mem_sets_iff hsets).mp hother
  obtain rfl : sequences = others := Option.some.inj (hlisted.symm.trans hothers)
  rw [hfound, Except.ok.inj (hset.symm.trans hsame)]

theorem lookup_eq_none_of_sets {properties : List StringProperty}
    {entries : List (StringProperty × StringSet)} (hsets : builder.sets properties = .ok entries)
    (hnone : builder.listed? property = none) : entries.lookup property = none := by
  rw [List.lookup_eq_none_iff]
  intro entry hmem
  obtain ⟨-, listed, hlisted, -⟩ := (mem_sets_iff hsets).mp hmem
  apply bne_iff_ne.mpr
  intro hsame
  rw [← hsame, hnone] at hlisted
  cases hlisted

/-- The sets of all properties together have all that is listed. -/
theorem mem_some_set_iff {entries : List (StringProperty × StringSet)}
    (hsets : builder.sets StringProperty.all = .ok entries) {sequence : Sequence} :
    (∃ entry ∈ entries, sequence ∈ entry.2.sequences) ↔
      ∃ property sequences, builder.listed? property = some sequences ∧ sequence ∈ sequences := by
  constructor
  · intro hset
    obtain ⟨entry, hentry, hsequence⟩ := hset
    obtain ⟨-, listed, hlisted, hset⟩ := (mem_sets_iff hsets).mp hentry
    exact ⟨entry.1, listed, hlisted, (StringSet.mem_of_ofList hset).mp hsequence⟩
  · intro hlist
    obtain ⟨other, listed, hlisted, hsequence⟩ := hlist
    obtain ⟨set, hentry, hset⟩ := exists_mem_sets hsets other.mem_all hlisted
    exact ⟨_, hentry, (StringSet.mem_of_ofList hset).mpr hsequence⟩

theorem entries_of_build {table : Table} (hbuild : builder.build = .ok table) :
    ∃ entries, builder.sets StringProperty.all = .ok entries ∧
      table.entries =
        entries ++ if (builder.listed? .rgiEmoji).isSome then [] else union entries := by
  rw [build, buildInOrder] at hbuild
  cases hsets : builder.sets StringProperty.all with
  | error error => simp [hsets] at hbuild
  | ok entries =>
    simp only [hsets] at hbuild
    refine ⟨entries, rfl, ?_⟩
    split at hbuild
    · next hlisted =>
      cases hbuild
      rw [if_pos hlisted, List.append_nil]
    · next hnone =>
      cases hbuild
      rw [if_neg hnone]

/-- A property that is listed has the set of its list. -/
theorem get?_of_build {table : Table} (hbuild : builder.build = .ok table)
    {sequences : List Sequence} (hlisted : builder.listed? property = some sequences) :
    ∃ set, table.get? property = some set ∧
      ∀ sequence, sequence ∈ set.sequences ↔ sequence ∈ sequences := by
  obtain ⟨entries, hsets, hentries⟩ := entries_of_build hbuild
  obtain ⟨set, hmem, hset⟩ := exists_mem_sets hsets property.mem_all hlisted
  refine ⟨set, ?_, fun _ => StringSet.mem_of_ofList hset⟩
  rw [Table.get?, hentries, List.lookup_append, lookup_of_sets hsets hmem, Option.some_or]

/-- The union of some sets is a set. -/
theorem union_eq_singleton {entries : List (StringProperty × StringSet)} (hne : entries ≠ []) :
    ∃ set, union entries = [(.rgiEmoji, set)] ∧
      ∀ sequence, sequence ∈ set.sequences ↔ ∃ entry ∈ entries, sequence ∈ entry.2.sequences := by
  obtain ⟨entry, hentry⟩ := List.exists_mem_of_ne_nil entries hne
  obtain ⟨sequence, hsequence⟩ := List.exists_mem_of_ne_nil _ entry.2.nonempty
  have hmem : sequence ∈ entries.flatMap (·.2.sequences) :=
    List.mem_flatMap.mpr ⟨entry, hentry, hsequence⟩
  have hsome : (StringSet.ofMembers? StringProperty.rgiEmoji.name
      (entries.flatMap (·.2.sequences))).isSome = true :=
    StringSet.isSome_ofMembers? (List.ne_nil_of_mem hmem)
  obtain ⟨set, hset⟩ := Option.isSome_iff_exists.mp hsome
  refine ⟨set, ?_, ?_⟩
  · rw [union, hset]
    rfl
  · intro other
    rw [StringSet.sequences_of_ofMembers? hset, Sequence.mem_distinct, List.mem_flatMap]

/-- Where it is not listed, `RGI_Emoji` has the union of all lists, if there are any. -/
theorem get?_rgiEmoji_of_build {table : Table} (hbuild : builder.build = .ok table)
    (hnone : builder.listed? .rgiEmoji = none)
    (hsome : ∃ property, (builder.listed? property).isSome = true) :
    ∃ set, table.get? .rgiEmoji = some set ∧
      ∀ sequence, sequence ∈ set.sequences ↔
        ∃ property sequences, builder.listed? property = some sequences ∧ sequence ∈ sequences := by
  obtain ⟨entries, hsets, hentries⟩ := entries_of_build hbuild
  obtain ⟨property, hlisted⟩ := hsome
  obtain ⟨sequences, hlisted⟩ := Option.isSome_iff_exists.mp hlisted
  obtain ⟨member, hmember, -⟩ := exists_mem_sets hsets property.mem_all hlisted
  obtain ⟨set, hunion, hmem⟩ := union_eq_singleton (List.ne_nil_of_mem hmember)
  refine ⟨set, ?_, ?_⟩
  · rw [Table.get?, hentries, hnone, List.lookup_append, lookup_eq_none_of_sets hsets hnone,
      Option.none_or]
    simp [hunion]
  · intro sequence
    rw [hmem, mem_some_set_iff hsets]

end TableBuilder

theorem Table.lookup?_name (table : Table) (property : StringProperty) :
    table.lookup? property.name = table.get? property := by
  rw [lookup?, StringProperty.ofName?_name, Option.bind_some]

namespace SequenceData

variable {data : SequenceData} {version : Version} {table : Table}

/-- The table of data is built from its lists, whose names are all names of properties. -/
theorem builder_of_table (htable : data.table version = .ok table) :
    ∃ builder : TableBuilder, builder.build = .ok table ∧
      (∀ property, builder.listed? property = data.sequences? property.name) ∧
      ∀ name, (data.sequences? name).isSome = true →
        ∃ property, StringProperty.name property = name := by
  have hlists : Table.ofLists data.lists version = .ok table := by
    rw [SequenceData.table] at htable
    split at htable
    · exact htable
    · split at htable
      · exact htable
      · simp at htable
  rw [Table.ofLists, NamedLists.tableInOrder] at hlists
  cases hinsert : (TableBuilder.empty version).insertAll data.lists.entries with
  | error error => simp [hinsert] at hlists
  | ok builder =>
    rw [hinsert] at hlists
    refine ⟨builder, hlists, ?_, ?_⟩
    · intro property
      rw [TableBuilder.listed?_of_insertAll hinsert, sequences?, NamedLists.get?_eq_listedUnder?]
    · intro name hsome
      obtain ⟨placed, -, hentries⟩ := TableBuilder.portions_of_insertAll hinsert
      rw [sequences?, NamedLists.get?_eq_listedUnder?] at hsome
      obtain ⟨entry, hmem, hname⟩ := exists_mem_of_listedUnder? hsome
      rw [hentries] at hmem
      obtain ⟨portion, -, rfl⟩ := List.mem_map.mp hmem
      exact ⟨portion.1, hname⟩

/-- A listed name has the set of its list. -/
theorem lookup?_of_table (htable : data.table version = .ok table) {name : String}
    {sequences : List Sequence} (hlisted : data.sequences? name = some sequences) :
    ∃ set, table.lookup? name = some set ∧
      ∀ sequence, sequence ∈ set.sequences ↔ sequence ∈ sequences := by
  obtain ⟨builder, hbuild, hlists, hnames⟩ := builder_of_table htable
  obtain ⟨property, rfl⟩ := hnames name (Option.isSome_of_eq_some hlisted)
  rw [table.lookup?_name]
  exact TableBuilder.get?_of_build hbuild ((hlists property).trans hlisted)

/-- Where only other names are listed, `RGI_Emoji` has all that is listed. -/
theorem lookup?_rgiEmoji_of_table (htable : data.table version = .ok table)
    (hnone : data.sequences? "RGI_Emoji" = none)
    (hsome : ∃ name, (data.sequences? name).isSome = true) :
    ∃ set, table.lookup? "RGI_Emoji" = some set ∧
      ∀ sequence, sequence ∈ set.sequences ↔
        ∃ name sequences, data.sequences? name = some sequences ∧ sequence ∈ sequences := by
  obtain ⟨builder, hbuild, hlists, hnames⟩ := builder_of_table htable
  obtain ⟨name, hname⟩ := hsome
  obtain ⟨property, rfl⟩ := hnames name hname
  rw [← hlists] at hname
  obtain ⟨set, hset, hmem⟩ := TableBuilder.get?_rgiEmoji_of_build hbuild
    ((hlists .rgiEmoji).trans hnone) ⟨property, hname⟩
  refine ⟨set, (table.lookup?_name .rgiEmoji).trans hset, ?_⟩
  intro sequence
  rw [hmem]
  constructor
  · intro hlist
    obtain ⟨other, sequences, hlisted, hsequence⟩ := hlist
    exact ⟨other.name, sequences, (hlists other).symm.trans hlisted, hsequence⟩
  · intro hlist
    obtain ⟨text, sequences, hlisted, hsequence⟩ := hlist
    obtain ⟨other, rfl⟩ := hnames text (Option.isSome_of_eq_some hlisted)
    exact ⟨other, sequences, (hlists other).trans hlisted, hsequence⟩

end SequenceData

end EmojiPatterns
