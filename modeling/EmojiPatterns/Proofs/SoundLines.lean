import EmojiPatterns.Proofs.LineRuns

/-!
# Files without a fault

Whether files can be added is settled line by line: no line may have a fault of its own, and all
versions that are declared, in the data before or in some line, have to be the same one.  What a
line says does not depend on a carriage return at its end.  Main statements:
`SequenceData.snd_addLines_eq_none_iff`, `SequenceData.snd_addFiles_eq_none_iff`.
-/

namespace EmojiPatterns

theorem Unicode.ne_of_isWhiteSpace {c x : Char} (hwhite : isWhiteSpace c = true)
    (hx : isWhiteSpace x = false) : c ≠ x := by
  rintro rfl
  rw [hwhite] at hx
  cases hx

namespace DataLine

/-! ### White space at the end of a line -/

theorem headerValue?_cons_of_ne {x : Char} (hx : x ≠ '#') (rest : List Char) :
    headerValue? (x :: rest) = none := by
  rw [headerValue?]
  intro other heq
  exact hx (List.cons.inj heq).1

theorem headerValue?_of_not_mem {line : List Char} (hmark : '#' ∉ line) :
    headerValue? line = none := by
  cases line with
  | nil => rfl
  | cons x rest =>
    apply headerValue?_cons_of_ne
    rintro rfl
    exact hmark List.mem_cons_self

section

variable {c : Char} (hwhite : Unicode.isWhiteSpace c = true)

include hwhite

theorem headerValue?_concat (line : List Char) :
    headerValue? (line ++ [c]) = headerValue? line := by
  cases line with
  | nil => exact headerValue?_cons_of_ne (Unicode.ne_of_isWhiteSpace hwhite (by decide)) []
  | cons x rest =>
    by_cases hx : x = '#'
    · subst hx
      have hversion : c ∉ "Version:".toList := by
        have hvisible : "Version:".toList.filter Unicode.isWhiteSpace = [] := by decide
        intro hmem
        exact List.filter_eq_nil_iff.mp hvisible c hmem hwhite
      rw [List.cons_append, headerValue?, headerValue?]
      rcases trimStart_concat hwhite rest with ⟨hnil, hconcat⟩ | hconcat
      · rw [hnil, hconcat]
      · rw [hconcat, dropPrefix?_concat hversion, Option.map_map]
        congr 1
        funext value
        exact trim_concat hwhite value
    · rw [List.cons_append, headerValue?_cons_of_ne hx, headerValue?_cons_of_ne hx]

/-- White space at the end of a line belongs to its comment or to its content. -/
theorem takeWhile_concat (line : List Char) :
    (line ++ [c]).takeWhile (· ≠ '#') = line.takeWhile (· ≠ '#') ∨
      (line ++ [c]).takeWhile (· ≠ '#') = line.takeWhile (· ≠ '#') ++ [c] := by
  have hne : c ≠ '#' := Unicode.ne_of_isWhiteSpace hwhite (by decide)
  rw [List.takeWhile_append]
  split
  · next hlength =>
    refine .inr ?_
    rw [(List.takeWhile_prefix _).eq_of_length hlength]
    simp [hne]
  · exact .inl rfl

theorem read_concat (line : List Char) : read (line ++ [c]) = read line := by
  have hne : c ≠ ';' := Unicode.ne_of_isWhiteSpace hwhite (by decide)
  have hcontent : trim ((line ++ [c]).takeWhile (· ≠ '#')) = trim (line.takeWhile (· ≠ '#')) := by
    rcases takeWhile_concat hwhite line with hsame | hconcat
    · rw [hsame]
    · rw [hconcat, trim_concat hwhite]
  have hfields : fields (line ++ [c]) = fields line := by
    rw [fields, fields]
    rcases takeWhile_concat hwhite line with hsame | hconcat
    · rw [hsame]
    · obtain ⟨front, last, hpieces, hlonger⟩ :=
        exists_splitOn_concat hne (line.takeWhile (· ≠ '#'))
      rw [hconcat, hpieces, hlonger, List.map_append, List.map_append, List.map_singleton,
        List.map_singleton, trim_concat hwhite]
  rw [read, read, headerValue?_concat hwhite, hcontent, hfields]

end

/-- A carriage return at the end of a line is not looked at. -/
theorem read_dropReturn (line : List Char) : read (dropReturn line) = read line := by
  rw [dropReturn]
  split
  · next hlast =>
    obtain ⟨init, rfl⟩ := List.getLast?_eq_some_iff.mp hlast
    rw [List.dropLast_concat, read_concat (by decide)]
  · rfl

/-! ### What a line says -/

/-- The fault of a line by itself, without regard to the version of the data. -/
def faults (line : List Char) : List (LineFault ⊕ SequenceError) :=
  match read line with
  | .error fault => [.inl fault]
  | .ok (.entry _ field) => (FieldReading.ofField field).failure.toList
  | .ok _ => []

/-- The version that a line declares. -/
def versions (line : List Char) : List Version :=
  match read line with
  | .ok (.header version) => [version]
  | _ => []

end DataLine

/-- Versions no two of which differ. -/
def SameVersion (versions : List Version) : Prop :=
  ∀ left ∈ versions, ∀ right ∈ versions, left = right

section

variable {versions others : List Version}

theorem SameVersion.of_subset (hsame : SameVersion others)
    (hsubset : ∀ version ∈ versions, version ∈ others) : SameVersion versions := by
  intro left hleft right hright
  exact hsame left (hsubset left hleft) right (hsubset right hright)

theorem sameVersion_congr (hmem : ∀ version, version ∈ versions ↔ version ∈ others) :
    SameVersion versions ↔ SameVersion others :=
  ⟨fun hsame => hsame.of_subset fun version => (hmem version).mpr,
    fun hsame => hsame.of_subset fun version => (hmem version).mp⟩

end

theorem sameVersion_toList (version? : Option Version) : SameVersion version?.toList := by
  intro left hleft right hright
  exact Option.mem_unique (Option.mem_toList.mp hleft) (Option.mem_toList.mp hright)

namespace SequenceData

variable {data after : SequenceData} {number : Nat} {line : List Char}

/-! ### Sound lines -/

/-- A line can be added if it has no fault by itself and declares no other version. -/
theorem snd_addLine_eq_none_iff :
    (data.addLine number line).2 = none ↔ DataLine.faults line = [] ∧
      SameVersion (data.version.toList ++ DataLine.versions line) := by
  have hone := sameVersion_toList data.version
  rw [addLine, DataLine.faults, DataLine.versions]
  cases DataLine.read line with
  | error fault => simp
  | ok statement =>
    cases statement with
    | blank => simpa using hone
    | header version =>
      cases hdeclared : data.version with
      | none => simp [declare, hdeclared, SameVersion]
      | some expected =>
        by_cases hsame : expected = version
        · simp [declare, hdeclared, hsame, SameVersion]
        · simp [declare, hdeclared, hsame, SameVersion]
    | entry name field => simpa [snd_addEntry] using fun _ => hone

/-- A line that is added gives the data its version. -/
theorem mem_version_of_addLine (hline : data.addLine number line = (after, none))
    (version : Version) :
    version ∈ after.version.toList ↔
      version ∈ data.version.toList ++ DataLine.versions line := by
  rw [addLine] at hline
  rw [DataLine.versions]
  cases hread : DataLine.read line with
  | error fault => simp [hread] at hline
  | ok statement =>
    simp only [hread] at hline ⊢
    cases statement with
    | blank =>
      cases hline
      simp
    | header found =>
      simp only [declare] at hline
      split at hline
      · next hnone =>
        cases hline
        simp [hnone]
      · next expected hsome =>
        split at hline
        · next hfound =>
          cases hline
          simp [hsome, hfound]
        · cases hline
    | entry name field =>
      obtain rfl : (data.addEntry number name field).1 = after := congrArg Prod.fst hline
      simp [addEntry]

/-- Lines can be added if none of them has a fault by itself and no two versions differ. -/
theorem snd_addLines_eq_none_iff (data : SequenceData) (number : Nat) (lines : List (List Char)) :
    (data.addLines number lines).2 = none ↔ lines.flatMap DataLine.faults = [] ∧
      SameVersion (data.version.toList ++ lines.flatMap DataLine.versions) := by
  induction lines generalizing data number with
  | nil => simpa [addLines] using sameVersion_toList data.version
  | cons line rest ih =>
    have hhead := @snd_addLine_eq_none_iff data number line
    rw [addLines]
    cases hline : data.addLine number line with
    | mk next fault =>
      rw [hline] at hhead
      simp only [List.flatMap_cons, List.append_eq_nil_iff]
      cases fault with
      | none =>
        obtain ⟨hfaults, -⟩ := hhead.mp rfl
        -- The data now has the versions declared so far, so the condition is the same one.
        have hversions : SameVersion (next.version.toList ++ rest.flatMap DataLine.versions) ↔
            SameVersion (data.version.toList ++
              (DataLine.versions line ++ rest.flatMap DataLine.versions)) := by
          apply sameVersion_congr
          intro version
          simp only [List.mem_append, mem_version_of_addLine hline version, or_assoc]
        rw [ih, hversions]
        simp [hfaults]
      | some error =>
        refine iff_of_false (by simp) ?_
        intro hsound
        obtain ⟨⟨hfaults, -⟩, hversions⟩ := hsound
        refine absurd (hhead.mpr ⟨hfaults, hversions.of_subset ?_⟩) (by simp)
        intro version hmem
        rw [← List.append_assoc]
        exact List.mem_append_left _ hmem

theorem mem_version_of_addLines {lines : List (List Char)}
    (hlines : data.addLines number lines = (after, none)) (version : Version) :
    version ∈ after.version.toList ↔
      version ∈ data.version.toList ++ lines.flatMap DataLine.versions := by
  induction lines generalizing data number with
  | nil =>
    cases hlines
    simp
  | cons line rest ih =>
    rw [addLines] at hlines
    split at hlines
    · next next hline =>
      rw [ih hlines, List.flatMap_cons]
      simp only [List.mem_append, mem_version_of_addLine hline version, or_assoc]
    · cases hlines

/-! ### Several files -/

/-- Where no line has a fault, files are added as if their lines were those of one file. -/
theorem addFiles_eq_none_iff {files : List (List Char)} :
    data.addFiles files = (after, none) ↔
      data.addLines 1 (files.flatMap linesOf) = (after, none) := by
  induction files generalizing data with
  | nil => rfl
  | cons file rest ih =>
    rw [addFiles, addFile, List.flatMap_cons, addLines_append]
    cases data.addLines 1 (linesOf file) with
    | mk middle fault =>
      cases fault with
      | none =>
        simp only [ih, addLines_add, Prod.ext_iff, Option.map_eq_none_iff]
      | some error => rfl

/-- Files can be added if none of their lines has a fault by itself and no two versions differ. -/
theorem snd_addFiles_eq_none_iff (data : SequenceData) (files : List (List Char)) :
    (data.addFiles files).2 = none ↔ (files.flatMap linesOf).flatMap DataLine.faults = [] ∧
      SameVersion (data.version.toList ++ (files.flatMap linesOf).flatMap DataLine.versions) := by
  rw [← snd_addLines_eq_none_iff data 1]
  constructor
  · intro hnone
    exact congrArg Prod.snd (addFiles_eq_none_iff.mp (Prod.ext rfl hnone))
  · intro hnone
    exact congrArg Prod.snd (addFiles_eq_none_iff.mpr (Prod.ext rfl hnone))

end SequenceData

end EmojiPatterns
