import EmojiPatterns.NamedLists
import EmojiPatterns.StringProperty
import EmojiPatterns.StringSet

/-!
# Tables of properties of strings

A `Table` gives properties of strings their sets, for one version of Unicode.  A `TableBuilder`
collects lists of sequences, in any number of portions for a property; building makes a set of each
property's whole list and, unless the data lists it, derives `RGI_Emoji` as the union of the rest.

A builder keeps the lists in a map that has no order of its own, so the order in which the sets are
made is left open.  It is an argument of `TableBuilder.buildInOrder`, which may be any rearrangement
of the properties, and shows in nothing but which of several malformed lists is reported;
`TableBuilder.build` is for the one order in which the properties are listed.
-/

namespace EmojiPatterns

/-- The sets of some properties. -/
structure Table where
  version : Version
  /-- Each property that has a set, in the order in which the sets were made. -/
  entries : List (StringProperty × StringSet)
deriving DecidableEq

namespace Table

def empty (version : Version) : Table :=
  ⟨version, []⟩

/-- The set of a property. -/
def get? (table : Table) (property : StringProperty) : Option StringSet :=
  table.entries.lookup property

/-- The set of the property with a given name. -/
def lookup? (table : Table) (name : String) : Option StringSet :=
  (StringProperty.ofName? name).bind table.get?

/-- The properties that have a set. -/
def properties (table : Table) : List StringProperty :=
  StringProperty.all.filter fun property => (table.get? property).isSome

end Table

/-- Sequences collected for the properties of a table. -/
structure TableBuilder where
  version : Version
  /-- What was listed for a property at a time, in order. -/
  portions : List (StringProperty × List Sequence)

namespace TableBuilder

def empty (version : Version) : TableBuilder :=
  ⟨version, []⟩

/-- Lists more sequences for a property. -/
def insert (builder : TableBuilder) (property : StringProperty) (sequences : List Sequence) :
    TableBuilder :=
  { builder with portions := builder.portions ++ [(property, sequences)] }

/-- Lists more sequences for the property with a given name. -/
def insertNamed (builder : TableBuilder) (name : String) (sequences : List Sequence) :
    Except DataError TableBuilder :=
  match StringProperty.ofName? name with
  | none => .error (.unsupportedProperty name)
  | some property => .ok (builder.insert property sequences)

/-- Lists every entry, up to the first whose name is no property. -/
def insertAll (builder : TableBuilder) :
    List (String × List Sequence) → Except DataError TableBuilder
  | [] => .ok builder
  | (name, sequences) :: rest =>
    match builder.insertNamed name sequences with
    | .error error => .error error
    | .ok builder => builder.insertAll rest

/-- The whole list of a property, if anything was listed for it, be it no sequence at all. -/
def listed? (builder : TableBuilder) (property : StringProperty) : Option (List Sequence) :=
  match builder.portions.filter fun portion => portion.1 = property with
  | [] => none
  | portions => some (portions.flatMap (·.2))

/-- The sets of those of the given properties that have a list. -/
def sets (builder : TableBuilder) :
    List StringProperty → Except DataError (List (StringProperty × StringSet))
  | [] => .ok []
  | property :: rest =>
    match builder.listed? property with
    | none => builder.sets rest
    | some sequences =>
      match StringSet.ofList property.name sequences with
      | .error error => .error error
      | .ok set => (builder.sets rest).map ((property, set) :: ·)

/-- The union of sets as an entry for `RGI_Emoji`; none if there is no set. -/
def union (entries : List (StringProperty × StringSet)) : List (StringProperty × StringSet) :=
  (StringSet.ofMembers? StringProperty.rgiEmoji.name (entries.flatMap (·.2.sequences))).toList.map
    fun set => (.rgiEmoji, set)

/-- The table of all that was listed, where the sets are made in a given order. -/
def buildInOrder (builder : TableBuilder) (order : List StringProperty) : Except DataError Table :=
  match builder.sets order with
  | .error error => .error error
  | .ok entries =>
    if (builder.listed? .rgiEmoji).isSome then .ok ⟨builder.version, entries⟩
    else .ok ⟨builder.version, entries ++ union entries⟩

/-- The table of all that was listed. -/
def build (builder : TableBuilder) : Except DataError Table :=
  builder.buildInOrder StringProperty.all

end TableBuilder

/-- The table of named lists, where the sets are made in a given order.  The names are checked
before any set is made. -/
def NamedLists.tableInOrder (lists : NamedLists) (order : List StringProperty) (version : Version) :
    Except DataError Table :=
  match (TableBuilder.empty version).insertAll lists.entries with
  | .error error => .error error
  | .ok builder => builder.buildInOrder order

/-- The table of named lists. -/
def Table.ofLists (lists : NamedLists) (version : Version) : Except DataError Table :=
  lists.tableInOrder StringProperty.all version

end EmojiPatterns
