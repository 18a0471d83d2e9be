import EmojiPatterns.Proofs.ByteOrder
import EmojiPatterns.Proofs.ListedSets
import EmojiPatterns.Proofs.TableSets

/-!
# What a builder was told

A builder is told sequences call by call.  All that matters for the table it builds is which
properties were listed and what was listed for each in total: not the order of the calls, nor how
the sequences were divided among them.  The order in which the sets are made matters only where
several lists are malformed, for which of them is reported.  A table of named lists is built from
one call for each name, unless a name is unknown.  Main statements:
`TableBuilder.holds_of_buildInOrder`, `TableBuilder.buildInOrder_sameOutcome`,
`TableBuilder.tables_are_exact`.
-/

namespace EmojiPatterns

theorem StringSet.name_of_ofMembers? {name : String} {sequences : List Sequence} {set : StringSet}
    (hset : ofMembers? name sequences = some set) : set.name = name := by
  rw [ofMembers?] at hset
  split at hset
  · cases hset
    rfl
  · simp at hset

/-! ### Outcomes -/

/-- Two attempts to make a table come to the same: to tables with the same sets, or to faults, which
are the same if there can be but one. -/
inductive SameOutcome (single : Prop) : Except DataError Table → Except DataError Table → Prop where
  | tables {left right : Table} (hversion : left.version = right.version)
      (hsets : ∀ property, left.get? property = right.get? property) :
      SameOutcome single (.ok left) (.ok right)
  | faults {left right : DataError} (hsame : single → left = right) :
      SameOutcome single (.error left) (.error right)

/-- A property whose list makes no set, as it is empty or names a sequence twice. -/
def Malformed (listed? : StringProperty → Option (List Sequence)) (property : StringProperty) :
    Prop :=
  ∃ sequences, listed? property = some sequences ∧ ¬ (sequences ≠ [] ∧ sequences.Nodup)

/-- At most one list makes no set. -/
def OneMalformed (listed? : StringProperty → Option (List Sequence)) : Prop :=
  ∀ left right, Malformed listed? left → Malformed listed? right → left = right

namespace TableBuilder

/-! ### Calls -/

/-- A call that lists sequences. -/
inductive Call where
  | insert (property : StringProperty) (sequences : List Sequence)
  | insertNamed (name : String) (sequences : List Sequence)

namespace Call

/-- The property that a call lists sequences for; none if its name is no property. -/
def property? : Call → Option StringProperty
  | insert property _ => some property
  | insertNamed name _ => StringProperty.ofName? name

def sequences : Call → List Sequence
  | insert _ sequences | insertNamed _ sequences => sequences

/-- The builder after a call.  A call that fails leaves it as it was. -/
def perform (builder : TableBuilder) : Call → TableBuilder
  | insert property sequences => builder.insert property sequences
  | insertNamed name sequences =>
    match builder.insertNamed name sequences with
    | .ok next => next
    | .error _ => builder

theorem perform_of_property? {builder : TableBuilder} {call : Call} {property : StringProperty}
    (hproperty : call.property? = some property) :
    call.perform builder = builder.insert property call.sequences := by
  cases call with
  | insert =>
    cases hproperty
    rfl
  | insertNamed name sequences =>
    simp only [property?] at hproperty
    simp [perform, TableBuilder.insertNamed, hproperty, Call.sequences]

theorem perform_of_property?_eq_none {builder : TableBuilder} {call : Call}
    (hproperty : call.property? = none) : call.perform builder = builder := by
  cases call with
  | insert => cases hproperty
  | insertNamed name sequences =>
    simp only [property?] at hproperty
    simp [perform, TableBuilder.insertNamed, hproperty]

end Call

/-- The builder after several calls. -/
def run (version : Version) (calls : List Call) : TableBuilder :=
  calls.foldl Call.perform (empty version)

/-- Whether some call lists sequences for a property, be it none at all. -/
def Lists (calls : List Call) (property : StringProperty) : Prop :=
  ∃ call ∈ calls, call.property? = some property

/-- All that calls list for a property. -/
def total (calls : List Call) (property : StringProperty) : List Sequence :=
  (calls.filter fun call => call.property? = some property).flatMap (·.sequences)

theorem version_run (version : Version) (calls : List Call) :
    (run version calls).version = version := by
  have hkept : ∀ builder : TableBuilder, (calls.foldl Call.perform builder).version =
      builder.version := by
    induction calls with
    | nil => exact fun _ => rfl
    | cons call rest ih =>
      intro builder
      rw [List.foldl_cons, ih]
      cases hproperty : call.property? with
      | none => rw [Call.perform_of_property?_eq_none hproperty]
      | some property =>
        rw [Call.perform_of_property? hproperty]
        rfl
  exact hkept (empty version)

/-- The portions for a property are what the calls for it list. -/
theorem portions_foldl_perform (builder : TableBuilder) (calls : List Call)
    (property : StringProperty) :
    (calls.foldl Call.perform builder).portions.filter (fun portion => portion.1 = property) =
      builder.portions.filter (fun portion => portion.1 = property) ++
        (calls.filter fun call => call.property? = some property).map
          fun call => (property, call.sequences) := by
  induction calls generalizing builder with
  | nil => simp
  | cons call rest ih =>
    rw [List.foldl_cons, ih]
    cases hproperty : call.property? with
    | none => simp [Call.perform_of_property?_eq_none hproperty, hproperty]
    | some other =>
      rw [Call.perform_of_property? hproperty]
      by_cases hother : other = property
      · simp [insert, hproperty, hother]
      · simp [insert, hproperty, hother]

variable {version : Version} {calls others : List Call} {property : StringProperty}

theorem filter_ne_nil_iff_lists :
    (calls.filter fun call => call.property? = some property) ≠ [] ↔ Lists calls property := by
  simp [Lists]

theorem listed?_run_of_lists (hlists : Lists calls property) :
    (run version calls).listed? property = some (total calls property) := by
  obtain ⟨call, rest, hcalls⟩ := List.exists_cons_of_ne_nil (filter_ne_nil_iff_lists.mpr hlists)
  have hportions := portions_foldl_perform (empty version) calls property
  rw [hcalls] at hportions
  simp only [empty, List.filter_nil, List.nil_append, List.map_cons] at hportions
  simp only [listed?, run, empty, hportions, total, hcalls, List.flatMap_cons, List.flatMap_map]

theorem listed?_run_of_not_lists (hlists : ¬ Lists calls property) :
    (run version calls).listed? property = none := by
  have hcalls := not_not.mp (mt filter_ne_nil_iff_lists.mp hlists)
  have hportions := portions_foldl_perform (empty version) calls property
  rw [hcalls] at hportions
  simp only [empty, List.filter_nil, List.nil_append, List.map_nil] at hportions
  simp only [listed?, run, empty, hportions]

theorem listed?_run_eq_some_iff {sequences : List Sequence} :
    (run version calls).listed? property = some sequences ↔
      Lists calls property ∧ total calls property = sequences := by
  by_cases hlists : Lists calls property
  · simp [listed?_run_of_lists hlists, hlists]
  · simp [listed?_run_of_not_lists hlists, hlists]

theorem isSome_eq_of_rel {first second : Option (List Sequence)}
    (hrel : Option.Rel List.Perm first second) : first.isSome = second.isSome := by
  cases hrel with
  | none => rfl
  | some => rfl

/-- Calls that list the same in total are told apart by no list but by its order. -/
theorem listed?_run_rel (hlists : ∀ property, Lists calls property ↔ Lists others property)
    (htotal : ∀ property, (total calls property).Perm (total others property))
    (property : StringProperty) :
    Option.Rel List.Perm ((run version calls).listed? property)
      ((run version others).listed? property) := by
  by_cases hlisted : Lists calls property
  · rw [listed?_run_of_lists hlisted, listed?_run_of_lists ((hlists property).mp hlisted)]
    exact .some (htotal property)
  · rw [listed?_run_of_not_lists hlisted,
      listed?_run_of_not_lists (mt (hlists property).mpr hlisted)]
    exact .none

/-! ### Making the sets in some order -/

section

variable {builder : TableBuilder} {order : List StringProperty}

theorem exists_sets_eq_ok_iff :
    (∃ entries, builder.sets order = .ok entries) ↔
      ∀ property ∈ order, ∀ sequences, builder.listed? property = some sequences →
        sequences ≠ [] ∧ sequences.Nodup := by
  induction order with
  | nil => simp [sets]
  | cons head rest ih =>
    rw [List.forall_mem_cons, ← ih, sets]
    cases hlisted : builder.listed? head with
    | none => simp
    | some sequences =>
      simp only [Option.some.injEq, forall_eq']
      rw [← @StringSet.exists_ofList_eq_ok_iff head.name]
      cases StringSet.ofList head.name sequences with
      | error error => simp
      | ok set =>
        cases builder.sets rest with
        | error error => simp [Except.map]
        | ok entries => simp [Except.map]

theorem exists_buildInOrder_eq_ok_iff :
    (∃ table, builder.buildInOrder order = .ok table) ↔
      ∃ entries, builder.sets order = .ok entries := by
  rw [buildInOrder]
  cases builder.sets order with
  | error error => simp
  | ok entries =>
    by_cases hlisted : (builder.listed? .rgiEmoji).isSome = true
    · simp [hlisted]
    · simp [hlisted]

theorem sets_eq_of_rel {left right : TableBuilder}
    (hlisted : ∀ property, Option.Rel List.Perm (left.listed? property) (right.listed? property)) :
    left.sets order = right.sets order := by
  induction order with
  | nil => rfl
  | cons head rest ih =>
    have hhead := hlisted head
    rw [sets, sets]
    generalize left.listed? head = first at hhead ⊢
    generalize right.listed? head = second at hhead ⊢
    cases hhead with
    | none => exact ih
    | some hperm =>
      simp only [StringSet.ofList_eq_of_perm hperm, ih]

theorem buildInOrder_eq_of_rel {left right : TableBuilder} (hversion : left.version = right.version)
    (hlisted : ∀ property, Option.Rel List.Perm (left.listed? property) (right.listed? property)) :
    left.buildInOrder order = right.buildInOrder order := by
  simp only [buildInOrder, sets_eq_of_rel hlisted, hversion, isSome_eq_of_rel (hlisted .rgiEmoji)]

end

/-! ### What the table holds -/

/-- What is to be found in a table after calls: the set of all that is listed for each property that
was listed, the union of everything where `RGI_Emoji` was not listed but something else was, and
nothing else. -/
structure Holds (version : Version) (calls : List Call) (table : Table) : Prop where
  version_eq : table.version = version
  listed : ∀ property, Lists calls property →
    ∃ set, table.get? property = some set ∧ set.name = property.name ∧
      set.sequences.Pairwise (· < ·) ∧ set.sequences.Perm (total calls property)
  derived : ¬ Lists calls .rgiEmoji → (∃ property, Lists calls property) →
    ∃ set, table.get? .rgiEmoji = some set ∧ set.name = StringProperty.rgiEmoji.name ∧
      set.sequences.Pairwise (· < ·) ∧
      ∀ sequence, sequence ∈ set.sequences ↔
        ∃ property, Lists calls property ∧ sequence ∈ total calls property
  other : ∀ property, ¬ Lists calls property →
    ¬ (property = .rgiEmoji ∧ ∃ other, Lists calls other) → table.get? property = none

/-- What is to be found determines what is found. -/
theorem Holds.get?_eq {left right : Table} (hleft : Holds version calls left)
    (hright : Holds version calls right) (property : StringProperty) :
    left.get? property = right.get? property := by
  by_cases hlists : Lists calls property
  · obtain ⟨first, hfirst, hfirstName, -, hfirstMem⟩ := hleft.listed property hlists
    obtain ⟨second, hsecond, hsecondName, -, hsecondMem⟩ := hright.listed property hlists
    rw [hfirst, hsecond, StringSet.ext_mem (hfirstName.trans hsecondName.symm)]
    intro sequence
    rw [hfirstMem.mem_iff, hsecondMem.mem_iff]
  · by_cases hderived : property = .rgiEmoji ∧ ∃ other, Lists calls other
    · obtain ⟨rfl, hsome⟩ := hderived
      obtain ⟨first, hfirst, hfirstName, -, hfirstMem⟩ := hleft.derived hlists hsome
      obtain ⟨second, hsecond, hsecondName, -, hsecondMem⟩ := hright.derived hlists hsome
      rw [hfirst, hsecond, StringSet.ext_mem (hfirstName.trans hsecondName.symm)]
      intro sequence
      rw [hfirstMem, hsecondMem]
    · rw [hleft.other property hlists hderived, hright.other property hlists hderived]

section

variable {order : List StringProperty} {entries : List (StringProperty × StringSet)}

/-- A property that is listed has its set among those that are made. -/
theorem exists_lookup_of_sets (hsets : (run version calls).sets order = .ok entries)
    (horder : property ∈ order) (hlists : Lists calls property) :
    ∃ set, entries.lookup property = some set ∧ set.name = property.name ∧
      set.sequences = Sequence.sort (total calls property) := by
  obtain ⟨set, hmem, hset⟩ := exists_mem_sets hsets horder (listed?_run_of_lists hlists)
  obtain ⟨-, -, hname, hsequences⟩ := StringSet.ofList_eq_ok_iff.mp hset
  exact ⟨set, lookup_of_sets hsets hmem, hname, hsequences⟩

/-- The sets that are made have together what is listed. -/
theorem mem_some_made_set_iff (hsets : (run version calls).sets order = .ok entries)
    (horder : ∀ property, property ∈ order) {sequence : Sequence} :
    (∃ entry ∈ entries, sequence ∈ entry.2.sequences) ↔
      ∃ property, Lists calls property ∧ sequence ∈ total calls property := by
  constructor
  · intro hset
    obtain ⟨⟨property, set⟩, hentry, hsequence⟩ := hset
    obtain ⟨-, sequences, hlisted, hset⟩ := (mem_sets_iff hsets).mp hentry
    obtain ⟨hlists, rfl⟩ := listed?_run_eq_some_iff.mp hlisted
    exact ⟨property, hlists, (StringSet.mem_of_ofList hset).mp hsequence⟩
  · intro hlist
    obtain ⟨property, hlists, hsequence⟩ := hlist
    obtain ⟨set, hentry, hset⟩ :=
      exists_mem_sets hsets (horder property) (listed?_run_of_lists hlists)
    exact ⟨_, hentry, (StringSet.mem_of_ofList hset).mpr hsequence⟩

/-- The union has the name of `RGI_Emoji`, and all that is listed. -/
theorem exists_lookup_union (hsets : (run version calls).sets order = .ok entries)
    (horder : ∀ property, property ∈ order) (hsome : ∃ property, Lists calls property) :
    ∃ set, (union entries).lookup .rgiEmoji = some set ∧
      set.name = StringProperty.rgiEmoji.name ∧
      ∀ sequence, sequence ∈ set.sequences ↔
        ∃ property, Lists calls property ∧ sequence ∈ total calls property := by
  obtain ⟨property, hlists⟩ := hsome
  obtain ⟨member, hmember, -⟩ :=
    exists_mem_sets hsets (horder property) (listed?_run_of_lists hlists)
  obtain ⟨set, hunion, hmem⟩ := union_eq_singleton (List.ne_nil_of_mem hmember)
  refine ⟨set, by simp [hunion], ?_, ?_⟩
  · rw [union] at hunion
    cases hmembers : StringSet.ofMembers? StringProperty.rgiEmoji.name
        (entries.flatMap (·.2.sequences)) with
    | none => simp [hmembers] at hunion
    | some other =>
      obtain rfl : other = set := by simpa [hmembers] using hunion
      exact StringSet.name_of_ofMembers? hmembers
  · intro sequence
    rw [hmem, mem_some_made_set_iff hsets horder]

theorem union_nil : union [] = [] := by
  simp [union, StringSet.ofMembers?, Sequence.distinct, Sequence.sort, Sequence.dropRepeats]

theorem lookup_union_of_ne (hne : property ≠ .rgiEmoji) :
    (union entries).lookup property = none := by
  rw [union, List.lookup_eq_none_iff]
  intro entry hmem
  obtain ⟨set, -, rfl⟩ := List.mem_map.mp hmem
  exact bne_iff_ne.mpr hne

theorem get?_of_buildInOrder {builder : TableBuilder} {table : Table}
    (hbuild : builder.buildInOrder order = .ok table) :
    ∃ entries, builder.sets order = .ok entries ∧ table.version = builder.version ∧
      ∀ property, table.get? property = (entries.lookup property).or
        (if (builder.listed? .rgiEmoji).isSome then none else (union entries).lookup property) := by
  rw [buildInOrder] at hbuild
  cases hsets : builder.sets order with
  | error error => simp [hsets] at hbuild
  | ok entries =>
    refine ⟨entries, rfl, ?_⟩
    by_cases hlisted : (builder.listed? .rgiEmoji).isSome = true
    · simp only [hsets, hlisted, if_true, Except.ok.injEq] at hbuild
      subst hbuild
      simp [Table.get?, hlisted]
    · simp only [hsets, hlisted] at hbuild
      cases hbuild
      simp [Table.get?, hlisted, List.lookup_append]

/-- In whatever order the sets are made, the table holds what is to be found in it. -/
theorem holds_of_buildInOrder {table : Table} (horder : ∀ property, property ∈ order)
    (hbuild : (run version calls).buildInOrder order = .ok table) :
    Holds version calls table := by
  obtain ⟨entries, hsets, hversion, hget⟩ := get?_of_buildInOrder hbuild
  refine ⟨hversion.trans (version_run version calls), ?listed, ?derived, ?other⟩
  case listed =>
    intro property hlists
    obtain ⟨set, hlookup, hname, hsequences⟩ :=
      exists_lookup_of_sets hsets (horder property) hlists
    refine ⟨set, by rw [hget, hlookup, Option.some_or], hname, set.ascending, ?_⟩
    rw [hsequences]
    exact Sequence.sort_perm _
  case derived =>
    intro hlists hsome
    obtain ⟨set, hlookup, hname, hmem⟩ := exists_lookup_union hsets horder hsome
    refine ⟨set, ?_, hname, set.ascending, hmem⟩
    rw [hget, lookup_eq_none_of_sets hsets (listed?_run_of_not_lists hlists),
      listed?_run_of_not_lists hlists]
    exact hlookup
  case other =>
    intro property hlists hderived
    have hmade := lookup_eq_none_of_sets hsets (listed?_run_of_not_lists hlists)
    by_cases hrgi : property = .rgiEmoji
    · have hnone : entries = [] := by
        apply List.eq_nil_iff_forall_not_mem.mpr
        intro entry hentry
        obtain ⟨-, sequences, hlisted, -⟩ := (mem_sets_iff hsets).mp hentry
        exact hderived ⟨hrgi, entry.1, (listed?_run_eq_some_iff.mp hlisted).1⟩
      subst hnone
      rw [hget, hmade, Option.none_or, ite_eq_left_iff]
      intro _
      rw [union_nil]
      rfl
    · rw [hget, hmade, lookup_union_of_ne hrgi, ite_self]
      rfl

end

/-! ### Outcomes in two orders -/

section

variable {order reorder : List StringProperty}

/-- Where a set cannot be made, the fault is that of a malformed property. -/
theorem exists_malformed_of_sets {builder : TableBuilder} {error : DataError}
    (hsets : builder.sets order = .error error) :
    ∃ property sequences, Malformed builder.listed? property ∧
      builder.listed? property = some sequences ∧
      StringSet.ofList property.name sequences = .error error := by
  induction order with
  | nil => cases hsets
  | cons head rest ih =>
    rw [sets] at hsets
    split at hsets
    · exact ih hsets
    · next sequences hlisted =>
      split at hsets
      · next found hset =>
        cases hsets
        refine ⟨head, sequences, ⟨sequences, hlisted, ?_⟩, hlisted, hset⟩
        rw [← @StringSet.exists_ofList_eq_ok_iff head.name, hset]
        simp
      · cases hrest : builder.sets rest with
        | error other =>
          rw [hrest] at hsets
          cases hsets
          exact ih hrest
        | ok entries =>
          rw [hrest] at hsets
          cases hsets

theorem sets_eq_error_of_buildInOrder {builder : TableBuilder} {error : DataError}
    (hbuild : builder.buildInOrder order = .error error) : builder.sets order = .error error := by
  rw [buildInOrder] at hbuild
  cases hsets : builder.sets order with
  | error other =>
    rw [hsets] at hbuild
    cases hbuild
    rfl
  | ok entries =>
    simp only [hsets] at hbuild
    split at hbuild <;> cases hbuild

/-- The order in which sets are made shows at most in which of several malformed ones is named. -/
theorem buildInOrder_sameOutcome (version : Version) (calls : List Call)
    (horder : ∀ property, property ∈ order) (hreorder : ∀ property, property ∈ reorder) :
    SameOutcome (OneMalformed (run version calls).listed?)
      ((run version calls).buildInOrder order) ((run version calls).buildInOrder reorder) := by
  have hboth : (∃ table, (run version calls).buildInOrder order = .ok table) ↔
      ∃ table, (run version calls).buildInOrder reorder = .ok table := by
    simp only [exists_buildInOrder_eq_ok_iff, exists_sets_eq_ok_iff, horder, hreorder]
  cases hleft : (run version calls).buildInOrder order with
  | ok left =>
    obtain ⟨right, hright⟩ := hboth.mp ⟨left, hleft⟩
    have hleftHolds := holds_of_buildInOrder horder hleft
    have hrightHolds := holds_of_buildInOrder hreorder hright
    rw [hright]
    exact .tables (hleftHolds.version_eq.trans hrightHolds.version_eq.symm)
      (hleftHolds.get?_eq hrightHolds)
  | error left =>
    cases hright : (run version calls).buildInOrder reorder with
    | ok right =>
      obtain ⟨table, htable⟩ := hboth.mpr ⟨right, hright⟩
      rw [hleft] at htable
      cases htable
    | error right =>
      refine .faults ?_
      intro hsingle
      obtain ⟨first, sequences, hfirst, hlisted, herror⟩ :=
        exists_malformed_of_sets (sets_eq_error_of_buildInOrder hleft)
      obtain ⟨second, others, hsecond, hothers, hother⟩ :=
        exists_malformed_of_sets (sets_eq_error_of_buildInOrder hright)
      -- Both faults are that of the only malformed property, so they are the same.
      obtain rfl := hsingle first second hfirst hsecond
      obtain rfl : sequences = others := Option.some.inj (hlisted.symm.trans hothers)
      exact Except.error.inj (herror.symm.trans hother)

end

/-! ### Named lists -/

section

variable {entries : List (String × List Sequence)}

/-- Entries whose names are all known are listed one after another. -/
theorem insertAll_eq_ok (builder : TableBuilder)
    (hknown : ∀ entry ∈ entries, ∃ property, StringProperty.name property = entry.1) :
    builder.insertAll entries =
      .ok ((entries.map fun entry => Call.insertNamed entry.1 entry.2).foldl Call.perform
        builder) := by
  induction entries generalizing builder with
  | nil => rfl
  | cons entry rest ih =>
    obtain ⟨⟨property, hname⟩, hrest⟩ := List.forall_mem_cons.mp hknown
    have hfound := StringProperty.ofName?_eq_some_iff.mpr hname
    simp [insertAll, insertNamed, Call.perform, hfound, ih _ hrest]

/-- Where names are unknown, the least of them is reported. -/
theorem insertAll_eq_error (builder : TableBuilder)
    (hascending : entries.Pairwise fun left right => NameLT left.1 right.1)
    (hunknown : ∃ entry ∈ entries, StringProperty.ofName? entry.1 = none) :
    ∃ entry ∈ entries, StringProperty.ofName? entry.1 = none ∧
      (∀ other ∈ entries, StringProperty.ofName? other.1 = none → ¬ NameLT other.1 entry.1) ∧
      builder.insertAll entries = .error (.unsupportedProperty entry.1) := by
  induction entries generalizing builder with
  | nil => simp at hunknown
  | cons head rest ih =>
    obtain ⟨hhead, hrest⟩ := List.pairwise_cons.mp hascending
    cases hname : StringProperty.ofName? head.1 with
    | none =>
      refine ⟨head, List.mem_cons_self, hname, ?_, by simp [insertAll, insertNamed, hname]⟩
      intro other hmem _ hbefore
      rcases List.mem_cons.mp hmem with rfl | hmem
      · exact textLT_irrefl _ hbefore
      · exact textLT_asymm hbefore (hhead other hmem)
    | some property =>
      have hlater : ∃ entry ∈ rest, StringProperty.ofName? entry.1 = none := by
        obtain ⟨entry, hmem, hnone⟩ := hunknown
        rcases List.mem_cons.mp hmem with rfl | hmem
        · simp [hname] at hnone
        · exact ⟨entry, hmem, hnone⟩
      obtain ⟨entry, hmem, hnone, hleast, herror⟩ :=
        ih (builder.insert property head.2) hrest hlater
      refine ⟨entry, List.mem_cons_of_mem head hmem, hnone, ?_, ?_⟩
      · intro other hother hotherNone
        rcases List.mem_cons.mp hother with rfl | hother
        · simp [hname] at hotherNone
        · exact hleast other hother hotherNone
      · simpa [insertAll, insertNamed, hname] using herror

end

/-- Tables hold exactly what was listed, however it was listed.  The order in which the sets are
made shows at most in which of several malformed lists is reported. -/
theorem tables_are_exact (version : Version) :
    (∀ calls order, order.Perm StringProperty.all →
      ((∃ table, (run version calls).buildInOrder order = .ok table) ↔
        ∀ property, Lists calls property →
          total calls property ≠ [] ∧ (total calls property).Nodup) ∧
      (∀ table, (run version calls).buildInOrder order = .ok table →
        Holds version calls table ∧
        (∀ property, table.lookup? (StringProperty.name property) = table.get? property) ∧
        ∀ name, (∀ property, StringProperty.name property ≠ name) → table.lookup? name = none) ∧
      ∀ error, (run version calls).buildInOrder order = .error error →
        ∃ property, Lists calls property ∧
          StringSet.ofList (StringProperty.name property) (total calls property) =
            .error error) ∧
    (∀ calls others order reorder, order.Perm StringProperty.all →
      reorder.Perm StringProperty.all →
      (∀ property, Lists calls property ↔ Lists others property) →
      (∀ property, (total calls property).Perm (total others property)) →
      SameOutcome (OneMalformed (run version calls).listed?)
        ((run version calls).buildInOrder order) ((run version others).buildInOrder reorder)) ∧
    ∀ (lists : NamedLists) order, order.Perm StringProperty.all →
      ((∀ entry ∈ lists.entries, ∃ property, StringProperty.name property = entry.1) →
        lists.tableInOrder order version =
          (run version (lists.entries.map fun entry =>
            .insertNamed entry.1 entry.2)).buildInOrder order) ∧
      ((∃ entry ∈ lists.entries, ∀ property, StringProperty.name property ≠ entry.1) →
        ∃ entry ∈ lists.entries, (∀ property, StringProperty.name property ≠ entry.1) ∧
          (∀ other ∈ lists.entries, (∀ property, StringProperty.name property ≠ other.1) →
            utf8Bytes entry.1.toList ≤ utf8Bytes other.1.toList) ∧
          lists.tableInOrder order version = .error (.unsupportedProperty entry.1)) := by
  have hunknown : ∀ name, StringProperty.ofName? name = none ↔
      ∀ property, StringProperty.name property ≠ name := by
    intro name
    simp only [Option.eq_none_iff_forall_ne_some, ne_eq, StringProperty.ofName?_eq_some_iff]
  refine ⟨?exact, ?same, ?lists⟩
  case exact =>
    intro calls order hperm
    have horder := StringProperty.mem_of_perm_all hperm
    refine ⟨?_, ?_, ?_⟩
    · rw [exists_buildInOrder_eq_ok_iff, exists_sets_eq_ok_iff]
      simp only [listed?_run_eq_some_iff, and_imp, forall_apply_eq_imp_iff, horder, true_imp_iff]
    · intro table hbuild
      refine ⟨holds_of_buildInOrder horder hbuild, table.lookup?_name, ?_⟩
      intro name hname
      rw [Table.lookup?, (hunknown name).mpr hname]
      rfl
    · intro error hbuild
      obtain ⟨property, sequences, -, hlisted, hset⟩ :=
        exists_malformed_of_sets (sets_eq_error_of_buildInOrder hbuild)
      obtain ⟨hlists, rfl⟩ := listed?_run_eq_some_iff.mp hlisted
      exact ⟨property, hlists, hset⟩
  case same =>
    intro calls others order reorder horder hreorder hlists htotal
    have hothers : (run version calls).buildInOrder reorder =
        (run version others).buildInOrder reorder :=
      buildInOrder_eq_of_rel ((version_run _ _).trans (version_run _ _).symm)
        (listed?_run_rel hlists htotal)
    rw [← hothers]
    exact buildInOrder_sameOutcome version calls (StringProperty.mem_of_perm_all horder)
      (StringProperty.mem_of_perm_all hreorder)
  case lists =>
    intro lists order _
    constructor
    · intro hknown
      simp only [NamedLists.tableInOrder, insertAll_eq_ok _ hknown, run]
    · intro hsome
      simp only [← hunknown] at hsome ⊢
      obtain ⟨entry, hmem, hnone, hleast, herror⟩ :=
        insertAll_eq_error (empty version) lists.ascending hsome
      refine ⟨entry, hmem, hnone, ?_, by simp only [NamedLists.tableInOrder, herror]⟩
      intro other hother hotherNone
      exact mt nameLT_iff_utf8Bytes_lt.mpr (hleast other hother hotherNone)

/-- A list in two portions with a call between them that fails, and the same list at once. -/
theorem tables_are_exact_portions :
    ∃ table other, (run .pinned [.insert .keycapSequence [.singleton '*'], .insertNamed "Keycap" [],
        .insertNamed "Emoji_Keycap_Sequence" [.singleton '#']]).buildInOrder
          StringProperty.all.reverse = .ok table ∧
      (run .pinned [.insert .keycapSequence [.singleton '#', .singleton '*']]).build = .ok other ∧
      Holds .pinned [.insert .keycapSequence [.singleton '*'], .insertNamed "Keycap" [],
        .insertNamed "Emoji_Keycap_Sequence" [.singleton '#']] table ∧
      ∀ property, table.get? property = other.get? property := by
  obtain ⟨hexact, hsame, -⟩ := tables_are_exact .pinned
  have hreverse : StringProperty.all.reverse.Perm StringProperty.all := List.reverse_perm _
  have hlists : ∀ property, Lists [.insert .keycapSequence [.singleton '*'],
      .insertNamed "Keycap" [], .insertNamed "Emoji_Keycap_Sequence" [.singleton '#']] property ↔
      Lists [.insert .keycapSequence [.singleton '#', .singleton '*']] property := by
    intro property
    cases property <;> simp only [← filter_ne_nil_iff_lists] <;> decide
  obtain ⟨hbuilds, hholds, -⟩ := hexact [.insert .keycapSequence [.singleton '*'],
    .insertNamed "Keycap" [], .insertNamed "Emoji_Keycap_Sequence" [.singleton '#']] _ hreverse
  obtain ⟨table, htable⟩ := hbuilds.mpr (by
    intro property hlisted
    obtain rfl : .keycapSequence = property := by
      simpa [Lists, Call.property?] using (hlists property).mp hlisted
    decide)
  have houtcome := hsame _ _ _ _ hreverse (List.Perm.refl _) hlists (by
    intro property
    cases property <;> decide)
  rw [htable] at houtcome
  cases hother : (run .pinned [.insert .keycapSequence
      [.singleton '#', .singleton '*']]).buildInOrder StringProperty.all with
  | error error =>
    rw [hother] at houtcome
    cases houtcome
  | ok other =>
    rw [hother] at houtcome
    cases houtcome with
    | tables _ hget => exact ⟨table, other, htable, hother, (hholds table htable).1, hget⟩

/-- What calls list in total for each property does not settle whether there is a table, as a list
without a sequence counts, nor which of two malformed lists is reported. -/
theorem totals_and_orders_show :
    (∀ property, total [.insert .keycapSequence [.singleton '#'], .insert .basicEmoji []] property =
      total [.insert .keycapSequence [.singleton '#']] property) ∧
    (run .pinned [.insert .keycapSequence [.singleton '#']]).build.isOk = true ∧
    (run .pinned [.insert .keycapSequence [.singleton '#'], .insert .basicEmoji []]).build =
      .error (.emptySet "Basic_Emoji") ∧
    (run .pinned [.insert .keycapSequence [], .insert .basicEmoji []]).buildInOrder
      StringProperty.all = .error (.emptySet "Basic_Emoji") ∧
    (run .pinned [.insert .keycapSequence [], .insert .basicEmoji []]).buildInOrder
      StringProperty.all.reverse = .error (.emptySet "Emoji_Keycap_Sequence") := by
  refine ⟨?_, by decide +kernel, by decide +kernel, by decide +kernel, by decide +kernel⟩
  intro property
  cases property <;> rfl

end TableBuilder

end EmojiPatterns
