import EmojiPatterns.Proofs.SoundLines
import EmojiPatterns.Proofs.TableSets

/-!
# Version headers

A line that starts with a number sign and goes on with `Version:` is the header of a version, at
whatever place in a file it stands.  What was added line by line has a version if it had a header,
and every header of it declares that one, so a table is never made of data of another version.
Main statement: `SequenceData.tables_have_one_version`.
-/

namespace EmojiPatterns

namespace DataLine

variable {line value : List Char} {version : Version}

/-! ### Headers -/

/-- A line is a header if it has a number sign and `Version:` at its start, with nothing but white
space between them.  Behind that stands its value. -/
def IsHeader (line value : List Char) : Prop :=
  ∃ blanks, (∀ c ∈ blanks, Unicode.isWhiteSpace c = true) ∧
    line = '#' :: (blanks ++ ("Version:".toList ++ value))

/-- A line declares a version if it is a header whose value reads as that version. -/
def Declares (line : List Char) (version : Version) : Prop :=
  ∃ value, IsHeader line value ∧ Version.read? (trim value) = some version

theorem trimStart_eq_version_iff {text : List Char} :
    trimStart text = "Version:".toList ++ value ↔
      ∃ blanks, (∀ c ∈ blanks, Unicode.isWhiteSpace c = true) ∧
        text = blanks ++ ("Version:".toList ++ value) := by
  constructor
  · intro htrim
    refine ⟨text.takeWhile Unicode.isWhiteSpace, fun _ hmem => List.mem_takeWhile_imp hmem, ?_⟩
    rw [← htrim, trimStart, List.takeWhile_append_dropWhile]
  · rintro ⟨blanks, hblanks, rfl⟩
    rw [trimStart, List.dropWhile_append_of_pos hblanks]
    exact List.dropWhile_cons_of_neg (by decide)

theorem headerValue?_eq_some_iff {trimmed : List Char} :
    headerValue? line = some trimmed ↔ ∃ value, IsHeader line value ∧ trim value = trimmed := by
  rw [headerValue?.eq_def]
  split
  · next rest =>
    simp only [Option.map_eq_some_iff, dropPrefix?_eq_some_iff, trimStart_eq_version_iff, IsHeader,
      List.cons.injEq, true_and]
  · next hother =>
    refine iff_of_false nofun ?_
    rintro ⟨value, ⟨blanks, -, rfl⟩, -⟩
    exact hother _ rfl

theorem read_of_isHeader (hheader : IsHeader line value)
    (hversion : Version.read? (trim value) = some version) :
    read line = .ok (.header version) := by
  simp only [read, headerValue?_eq_some_iff.mpr ⟨value, hheader, rfl⟩, hversion]

theorem read_eq_error_of_isHeader (hheader : IsHeader line value)
    (hversion : Version.read? (trim value) = none) :
    read line = .error (.version (String.ofList (trim value))) := by
  simp only [read, headerValue?_eq_some_iff.mpr ⟨value, hheader, rfl⟩, hversion]

theorem read_eq_header_iff : read line = .ok (.header version) ↔ Declares line version := by
  constructor
  · intro hread
    cases hvalue : headerValue? line with
    | some trimmed =>
      obtain ⟨value, hheader, rfl⟩ := headerValue?_eq_some_iff.mp hvalue
      cases hversion : Version.read? (trim value) with
      | some found =>
        rw [read_of_isHeader hheader hversion] at hread
        cases hread
        exact ⟨value, hheader, hversion⟩
      | none =>
        rw [read_eq_error_of_isHeader hheader hversion] at hread
        cases hread
    | none =>
      rw [read, hvalue] at hread
      dsimp only at hread
      split at hread
      · cases hread
      · split at hread
        · split at hread <;> cases hread
        · cases hread
  · rintro ⟨value, hheader, hversion⟩
    exact read_of_isHeader hheader hversion

theorem mem_versions_iff : version ∈ versions line ↔ Declares line version := by
  rw [← read_eq_header_iff, versions]
  cases read line with
  | error fault => simp
  | ok statement => cases statement <;> simp [eq_comm]

/-- Where a line has no fault, its header declares a version. -/
theorem isSome_read?_of_isHeader (hfaults : faults line = []) (hheader : IsHeader line value) :
    (Version.read? (trim value)).isSome = true := by
  cases hversion : Version.read? (trim value) with
  | some version => rfl
  | none =>
    rw [faults, read_eq_error_of_isHeader hheader hversion] at hfaults
    cases hfaults

end DataLine

/-! ### The version of a table -/

theorem TableBuilder.version_of_insertAll {builder after : TableBuilder}
    {entries : List (String × List Sequence)} (hinsert : builder.insertAll entries = .ok after) :
    after.version = builder.version := by
  induction entries generalizing builder with
  | nil =>
    cases hinsert
    rfl
  | cons entry rest ih =>
    rw [insertAll, insertNamed] at hinsert
    cases hname : StringProperty.ofName? entry.1 with
    | none => simp [hname] at hinsert
    | some property =>
      rw [hname] at hinsert
      exact @ih (builder.insert property entry.2) hinsert

theorem TableBuilder.version_of_build {builder : TableBuilder} {table : Table}
    (hbuild : builder.build = .ok table) : table.version = builder.version := by
  rw [build, buildInOrder] at hbuild
  split at hbuild
  · cases hbuild
  · split at hbuild <;> cases hbuild <;> rfl

theorem Table.version_of_ofLists {lists : NamedLists} {version : Version} {table : Table}
    (htable : ofLists lists version = .ok table) : table.version = version := by
  rw [ofLists, NamedLists.tableInOrder] at htable
  split at htable
  · cases htable
  · next builder hinsert =>
    exact (TableBuilder.version_of_build htable).trans (TableBuilder.version_of_insertAll hinsert)

namespace SequenceData

variable {files : List (List Char)} {data : SequenceData} {version : Version}

/-- The table of data is of the version that was asked for, and the data is of no other. -/
theorem version_of_table {table : Table} (htable : data.table version = .ok table) :
    table.version = version ∧ ∀ found, data.version = some found → found = version := by
  rw [SequenceData.table] at htable
  cases hversion : data.version with
  | none =>
    rw [hversion] at htable
    refine ⟨Table.version_of_ofLists htable, ?_⟩
    rintro found ⟨⟩
  | some expected =>
    simp only [hversion] at htable
    split at htable
    · next hsame =>
      refine ⟨Table.version_of_ofLists htable, ?_⟩
      rintro found ⟨⟩
      exact hsame
    · cases htable

theorem table_of_version_ne {found : Version} (hversion : data.version = some found)
    (hne : found ≠ version) : data.table version = .error (.versionMismatch version found) := by
  simp only [SequenceData.table, hversion, hne, ↓reduceIte]

/-! ### Headers in files -/

/-- Every header in some files declares a version. -/
def HeadersDeclare (files : List (List Char)) (version : Version) : Prop :=
  ∀ line ∈ files.flatMap linesOf, ∀ value, DataLine.IsHeader line value →
    Version.read? (trim value) = some version

section

variable (hadded : empty.addFiles files = (data, none))

include hadded

theorem version_eq_some_iff_of_addFiles :
    data.version = some version ↔
      ∃ line ∈ files.flatMap linesOf, DataLine.Declares line version := by
  rw [← Option.mem_toList, mem_version_of_addLines (addFiles_eq_none_iff.mp hadded),
    List.mem_append, List.mem_flatMap]
  simp only [empty, Option.toList_none, List.not_mem_nil, false_or, DataLine.mem_versions_iff]

/-- The value of every header is the version of the data. -/
theorem exists_version_of_isHeader {line value : List Char} (hline : line ∈ files.flatMap linesOf)
    (hheader : DataLine.IsHeader line value) :
    ∃ version, data.version = some version ∧ Version.read? (trim value) = some version := by
  have hfaults := ((snd_addFiles_eq_none_iff empty files).mp (congrArg Prod.snd hadded)).1
  obtain ⟨version, hread⟩ := Option.isSome_iff_exists.mp
    (DataLine.isSome_read?_of_isHeader (List.flatMap_eq_nil_iff.mp hfaults line hline) hheader)
  exact ⟨version, (version_eq_some_iff_of_addFiles hadded).mpr ⟨line, hline, value, hheader, hread⟩,
    hread⟩

end

/-- Where files are added, their data has a version if some line of them is a header, and every
header in them declares that one.  A table of the data has the version that was asked for and no
header declares another; where one does, no table is made. -/
theorem tables_have_one_version (hadded : empty.addFiles files = (data, none)) :
    (data.version.isSome = true ↔
      ∃ line ∈ files.flatMap linesOf, ∃ value, DataLine.IsHeader line value) ∧
    (∀ version, data.version = some version → HeadersDeclare files version) ∧
    ∀ version,
      (∀ table, data.table version = .ok table →
        table.version = version ∧ HeadersDeclare files version) ∧
      ∀ found ≠ version, (∃ line ∈ files.flatMap linesOf, DataLine.Declares line found) →
        data.table version = .error (.versionMismatch version found) := by
  have hheaders : ∀ version, (∀ found, data.version = some found → found = version) →
      HeadersDeclare files version := by
    intro version hfound line hline value hheader
    obtain ⟨found, hversion, hread⟩ := exists_version_of_isHeader hadded hline hheader
    exact hfound found hversion ▸ hread
  refine ⟨?header, ?same, ?table⟩
  case header =>
    rw [Option.isSome_iff_exists]
    constructor
    · rintro ⟨version, hversion⟩
      obtain ⟨line, hline, value, hheader, -⟩ :=
        (version_eq_some_iff_of_addFiles hadded).mp hversion
      exact ⟨line, hline, value, hheader⟩
    · rintro ⟨line, hline, value, hheader⟩
      obtain ⟨version, hversion, -⟩ := exists_version_of_isHeader hadded hline hheader
      exact ⟨version, hversion⟩
  case same =>
    intro version hversion
    exact hheaders version fun found hfound => Option.some.inj (hfound.symm.trans hversion)
  case table =>
    intro version
    constructor
    · intro table htable
      obtain ⟨hversion, hfound⟩ := version_of_table htable
      exact ⟨hversion, hheaders version hfound⟩
    · rintro found hne hline
      exact table_of_version_ne ((version_eq_some_iff_of_addFiles hadded).mpr hline) hne

/-- The header stands behind a data line, with two blanks in it. -/
theorem tables_have_one_version_later :
    ∃ data table,
      empty.addFiles ["23 ; Basic_Emoji\r\n#  Version: 15.1\r\n".toList] = (data, none) ∧
      data.table .pinned = .ok table ∧ table.version = .pinned ∧
      data.table ⟨14, 0⟩ = .error (.versionMismatch ⟨14, 0⟩ .pinned) := by
  obtain ⟨data, hadded, hmade⟩ : ∃ data,
      empty.addFiles ["23 ; Basic_Emoji\r\n#  Version: 15.1\r\n".toList] = (data, none) ∧
      (data.table .pinned).isOk = true :=
    ⟨(empty.addFiles ["23 ; Basic_Emoji\r\n#  Version: 15.1\r\n".toList]).1,
      Prod.ext rfl (by decide +kernel), by decide +kernel⟩
  have hdeclares : DataLine.Declares "#  Version: 15.1".toList .pinned :=
    ⟨" 15.1".toList, ⟨"  ".toList, List.all_eq_true.mp (by decide), rfl⟩, by decide⟩
  obtain ⟨-, -, htables⟩ := tables_have_one_version hadded
  cases htable : data.table .pinned with
  | error e =>
    rw [htable] at hmade
    cases hmade
  | ok table =>
    exact ⟨data, table, hadded, htable, ((htables .pinned).1 table htable).1,
      (htables ⟨14, 0⟩).2 .pinned (by decide)
        ⟨"#  Version: 15.1".toList, by decide +kernel, hdeclares⟩⟩

end SequenceData

end EmojiPatterns
