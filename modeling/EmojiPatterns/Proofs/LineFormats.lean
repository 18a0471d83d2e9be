import EmojiPatterns.Proofs.BlankSpace
import Mathlib.Data.List.Forall2

/-!
# Formats of data lines

A data line says the same in whatever format it is written: the white space around its first two
fields, between its code points and around the `..` of a range, what its further fields hold, and
its comment make no difference.  Nor does a carriage return in front of each line feed.  Only the
`..` itself has to stay the first of its field, so white space between it and a full stop before it
cannot be left out.  Main statement: `SequenceData.formatting_is_irrelevant`.
-/

namespace EmojiPatterns

/-- What the field of code points says on a data line. -/
inductive FieldParts where
  | sequence (words : List (List Char))
  | range (first last : List Char)

/-- What a data line says. -/
structure DataRow where
  parts : FieldParts
  name : List Char

/-- The ways to write the field of code points.  A sequence has no `..` in it; a range is divided
by the first `..`, with white space on either side of it and around the whole. -/
inductive FieldParts.Written : FieldParts → List Char → Prop where
  | sequence {words : List (List Char)} {field : List Char} (hspaced : Spaced words field)
      (hdots : ¬ ['.', '.'] <:+: field) : Written (.sequence words) field
  | range {first last front back : List Char} (hfirst : Padded first front)
      (hlast : Padded last back) (hdots : ¬ ['.', '.'] <:+: front ++ ['.']) :
      Written (.range first last) (front ++ '.' :: '.' :: back)

/-- A text without the signs that end a field or the content of a line. -/
def Unmarked (text : List Char) : Prop :=
  '#' ∉ text ∧ ';' ∉ text

instance (text : List Char) : Decidable (Unmarked text) :=
  inferInstanceAs (Decidable (_ ∧ _))

/-- The ways to write a line: its two fields with white space around each, and behind them further
fields, a comment or nothing. -/
inductive DataRow.Written (row : DataRow) : List Char → Prop where
  | line {field name rest : List Char} (hfield : row.parts.Written field)
      (hname : Padded row.name name) (hmarks : Unmarked field ∧ Unmarked name)
      (hrest : ∀ c ∈ rest.head?, c = ';' ∨ c = '#') :
      Written row (field ++ ';' :: (name ++ rest))

/-- However the parts of a field are written, it is read alike. -/
theorem FieldParts.Written.ofField_eq {parts : FieldParts} {left right : List Char}
    (hleft : parts.Written left) (hright : parts.Written right) :
    FieldReading.ofField left = FieldReading.ofField right := by
  cases hleft with
  | sequence hleft hleftDots =>
    cases hright with
    | sequence hright hrightDots =>
      rw [FieldReading.ofField, FieldReading.ofField, splitAtDots?_eq_none_iff.mpr hleftDots,
        splitAtDots?_eq_none_iff.mpr hrightDots, hleft.wordsOf_eq, hright.wordsOf_eq]
  | range hleftFirst hleftLast hleftDots =>
    cases hright with
    | range hrightFirst hrightLast hrightDots =>
      rw [FieldReading.ofField, FieldReading.ofField,
        splitAtDots?_eq_some_iff.mpr ⟨rfl, hleftDots⟩,
        splitAtDots?_eq_some_iff.mpr ⟨rfl, hrightDots⟩]
      simp only [hleftFirst.trim_eq, hleftLast.trim_eq, hrightFirst.trim_eq, hrightLast.trim_eq]

/-- Every field is a sequence or a range. -/
theorem FieldParts.exists_written (field : List Char) :
    ∃ parts : FieldParts, parts.Written field := by
  cases hdots : splitAtDots? field with
  | none => exact ⟨_, .sequence (spaced_iff.mpr rfl) (splitAtDots?_eq_none_iff.mp hdots)⟩
  | some ends =>
    obtain ⟨rfl, hfirst⟩ := splitAtDots?_eq_some_iff.mp hdots
    exact ⟨_, .range (padded_refl ends.1) (padded_refl ends.2) hfirst⟩

namespace Unmarked

variable {name rest : List Char}

theorem takeWhile_append (hname : Unmarked name) (rest : List Char) :
    (name ++ rest).takeWhile (· ≠ '#') = name ++ rest.takeWhile (· ≠ '#') :=
  List.takeWhile_append_of_pos fun _ hmem => by simpa using ne_of_mem_of_not_mem hmem hname.1

/-- What stands before a sign is the first field of what the comment leaves. -/
theorem exists_splitOn (hname : Unmarked name) (hrest : ∀ c ∈ rest.head?, c = ';' ∨ c = '#') :
    ∃ more, (name ++ rest.takeWhile (· ≠ '#')).splitOn ';' = name :: more := by
  cases rest with
  | nil => exact ⟨[], by simpa using List.splitOn_eq_singleton hname.2⟩
  | cons c more =>
    rcases hrest c rfl with rfl | rfl
    · exact ⟨_, List.splitOn_append_cons_self_of_not_mem hname.2 _⟩
    · exact ⟨[], by simpa using List.splitOn_eq_singleton hname.2⟩

/-- Every text is unmarked up to its first sign. -/
theorem exists_append (text : List Char) :
    ∃ name rest, text = name ++ rest ∧ Unmarked name ∧ ∀ c ∈ rest.head?, c = ';' ∨ c = '#' := by
  induction text with
  | nil => exact ⟨[], [], rfl, by decide, by simp⟩
  | cons c more ih =>
    by_cases hsign : c = ';' ∨ c = '#'
    · exact ⟨[], c :: more, rfl, by decide, by simpa using hsign⟩
    · obtain ⟨name, rest, rfl, hname, hrest⟩ := ih
      obtain ⟨hsemicolon, hmark⟩ := not_or.mp hsign
      exact ⟨c :: name, rest, rfl, ⟨List.not_mem_cons_of_ne_of_not_mem (Ne.symm hmark) hname.1,
        List.not_mem_cons_of_ne_of_not_mem (Ne.symm hsemicolon) hname.2⟩, hrest⟩

end Unmarked

namespace DataLine

/-! ### Lines with two fields -/

theorem read_of_fields {line field name : List Char} {more : List (List Char)}
    (hheader : headerValue? line = none) (hfields : fields line = field :: name :: more) :
    read line =
      if name = [] then .error .name else .ok (.entry (String.ofList name) field) := by
  rw [read, hheader]
  simp only [content_ne_nil hfields, hfields, ↓reduceIte]

/-- Lines that do the same to all data. -/
def SameEffect (line other : List Char) : Prop :=
  ∀ (data : SequenceData) (number : Nat), data.addLine number line = data.addLine number other

theorem sameEffect_of_read_eq {line other : List Char} (hread : read line = read other) :
    SameEffect line other := by
  intro data number
  rw [SequenceData.addLine, SequenceData.addLine, hread]

end DataLine

namespace DataRow

variable {row : DataRow} {line other : List Char}

/-- The first two fields of a written line are those of its row. -/
theorem Written.exists_fields (hwritten : row.Written line) :
    ∃ field more, row.parts.Written field ∧ DataLine.headerValue? line = none ∧
      DataLine.fields line = trim field :: trim row.name :: more := by
  cases hwritten with
  | @line field name rest hfield hname hmarks hrest =>
    obtain ⟨hfieldMarks, hnameMarks⟩ := hmarks
    have hheader : DataLine.headerValue? (field ++ ';' :: (name ++ rest)) = none := by
      cases field with
      | nil => exact DataLine.headerValue?_cons_of_ne (by decide) _
      | cons x more =>
        have hx : x ≠ '#' := ne_of_mem_of_not_mem List.mem_cons_self hfieldMarks.1
        exact DataLine.headerValue?_cons_of_ne hx _
    obtain ⟨more, hmore⟩ := hnameMarks.exists_splitOn hrest
    refine ⟨field, more.map trim, hfield, hheader, ?_⟩
    rw [DataLine.fields, hfieldMarks.takeWhile_append, List.takeWhile_cons_of_pos (by decide),
      hnameMarks.takeWhile_append, List.splitOn_append_cons_self_of_not_mem hfieldMarks.2, hmore,
      List.map_cons, List.map_cons, hname.trim_eq]

/-- However a row is written, the line does the same. -/
theorem Written.sameEffect (hline : row.Written line) (hother : row.Written other) :
    DataLine.SameEffect line other := by
  obtain ⟨left, leftMore, hleft, hlineHeader, hlineFields⟩ := hline.exists_fields
  obtain ⟨right, rightMore, hright, hotherHeader, hotherFields⟩ := hother.exists_fields
  have hfield : FieldReading.ofField (trim left) = FieldReading.ofField (trim right) := by
    rw [← FieldReading.ofField_of_padded (padded_trim left),
      ← FieldReading.ofField_of_padded (padded_trim right), hleft.ofField_eq hright]
  intro data number
  rw [SequenceData.addLine, SequenceData.addLine, DataLine.read_of_fields hlineHeader hlineFields,
    DataLine.read_of_fields hotherHeader hotherFields]
  by_cases hname : trim row.name = []
  · simp only [hname, ↓reduceIte]
  · simp only [hname, ↓reduceIte, SequenceData.addEntry, hfield]

/-- A line is a data line if a semicolon stands in it before any number sign. -/
theorem exists_written (hsemicolon : ';' ∈ line.takeWhile (· ≠ '#')) :
    ∃ row : DataRow, row.Written line := by
  obtain ⟨field, back, rfl, hfield, hend⟩ := Unmarked.exists_append line
  rw [hfield.takeWhile_append] at hsemicolon
  have hback : ';' ∈ back.takeWhile (· ≠ '#') :=
    (List.mem_append.mp hsemicolon).resolve_left hfield.2
  cases back with
  | nil => cases hback
  | cons c behind =>
    rcases hend c rfl with rfl | rfl
    · obtain ⟨name, rest, rfl, hname, hrest⟩ := Unmarked.exists_append behind
      obtain ⟨parts, hparts⟩ := FieldParts.exists_written field
      exact ⟨⟨parts, name⟩, .line hparts (padded_refl name) ⟨hfield, hname⟩ hrest⟩
    · cases hback

end DataRow

namespace SequenceData

variable {text other : List Char}

/-- A text with a carriage return before each line feed. -/
def withReturns (text : List Char) : List Char :=
  text.flatMap fun c => if c = '\n' then ['\r', '\n'] else [c]

/-- Texts that are the same line by line, but for the format of data lines. -/
def Reformatted (text other : List Char) : Prop :=
  List.Forall₂
    (fun line other => line = other ∨ ∃ row : DataRow, row.Written line ∧ row.Written other)
    (text.splitOn '\n') (other.splitOn '\n')

theorem addLines_congr {lines others : List (List Char)}
    (hlines : List.Forall₂ DataLine.SameEffect lines others) (data : SequenceData) (number : Nat) :
    data.addLines number lines = data.addLines number others := by
  induction hlines generalizing data number with
  | nil => rfl
  | cons hline _ ih =>
    rw [addLines, addLines, hline data number]
    split
    · exact ih _ _
    · rfl

/-- A file is added as what stands between its line feeds. -/
theorem addFile_eq_addLines (data : SequenceData) (text : List Char) :
    data.addFile text = data.addLines 1 (text.splitOn '\n') := by
  obtain ⟨init, last, hpieces⟩ :=
    (List.eq_nil_or_concat (text.splitOn '\n')).resolve_left (List.splitOn_ne_nil '\n' text)
  have hinit : List.Forall₂ DataLine.SameEffect (init.map dropReturn) init :=
    List.forall₂_map_left_iff.mpr (List.forall₂_same.mpr fun line _ =>
      DataLine.sameEffect_of_read_eq (DataLine.read_dropReturn line))
  rw [addFile, linesOf, hpieces, List.concat_eq_append, List.dropLast_concat,
    List.getLast?_concat, addLines_append, addLines_append, addLines_congr hinit]
  split
  · next middle _ =>
    by_cases hlast : last = []
    · subst hlast
      rfl
    · simp [hlast]
  · rfl

theorem addFile_congr
    (hlines : List.Forall₂ DataLine.SameEffect (text.splitOn '\n') (other.splitOn '\n'))
    (data : SequenceData) : data.addFile text = data.addFile other := by
  rw [addFile_eq_addLines, addFile_eq_addLines, addLines_congr hlines]

theorem splitOn_withReturns (text : List Char) :
    List.Forall₂ (fun line other => line = other ∨ line = other ++ ['\r'])
      ((withReturns text).splitOn '\n') (text.splitOn '\n') := by
  induction text with
  | nil => exact .cons (.inl rfl) .nil
  | cons c rest ih =>
    by_cases hc : c = '\n'
    · subst hc
      have hreturns : withReturns ('\n' :: rest) = ['\r'] ++ '\n' :: withReturns rest := rfl
      rw [hreturns, List.splitOn_append_cons_self_of_not_mem (by decide),
        ← List.nil_append ('\n' :: rest),
        List.splitOn_append_cons_self_of_not_mem List.not_mem_nil]
      exact .cons (.inr rfl) ih
    · have hreturns : withReturns (c :: rest) = c :: withReturns rest := by
        simp [withReturns, hc]
      rw [hreturns, List.splitOn_cons_eq_if_modifyHead, List.splitOn_cons_eq_if_modifyHead,
        if_neg (by simpa using hc), if_neg (by simpa using hc)]
      generalize (withReturns rest).splitOn '\n' = lines, rest.splitOn '\n' = others at ih ⊢
      cases ih with
      | nil => exact .nil
      | cons hline hrest =>
        refine .cons (hline.imp (congrArg (c :: ·)) ?_) hrest
        intro heq
        exact congrArg (c :: ·) heq

/-- How a data file is formatted shows neither in the data nor in the fault that ends the file.  Its
lines may end in a line feed or in a carriage return and a line feed.  Every line with a semicolon
before any number sign is the writing of a row, and any data lines can be exchanged for other
writings of their rows. -/
theorem formatting_is_irrelevant (data : SequenceData) :
    (∀ text, data.addFile (withReturns text) = data.addFile text) ∧
    (∀ line, ';' ∈ line.takeWhile (· ≠ '#') → ∃ row : DataRow, row.Written line) ∧
    ∀ text other, Reformatted text other → data.addFile text = data.addFile other := by
  refine ⟨?returns, fun _ => DataRow.exists_written, ?rows⟩
  case returns =>
    intro text
    apply addFile_congr
    apply (splitOn_withReturns text).imp
    rintro line other (rfl | rfl)
    · exact fun _ _ => rfl
    · exact DataLine.sameEffect_of_read_eq (DataLine.read_concat (by decide) other)
  case rows =>
    intro text other hlines
    apply addFile_congr
    apply hlines.imp
    rintro line other (rfl | ⟨row, hline, hother⟩)
    · exact fun _ _ => rfl
    · exact hline.sameEffect hother

/-- A range with white space around its ends, a third field and a comment. -/
theorem formatting_is_irrelevant_range :
    Reformatted "231A..231B;A".toList " 231A\t..  231B ; A ; watch # 2".toList ∧
      (empty.addFile " 231A\t..  231B ; A ; watch # 2".toList) =
        (⟨none, NamedLists.empty.append "A" [.singleton '\u231A', .singleton '\u231B']⟩, none) := by
  let row : DataRow := ⟨.range "231A".toList "231B".toList, ['A']⟩
  have hplain : row.Written "231A..231B;A".toList :=
    have hfield : row.parts.Written ("231A".toList ++ '.' :: '.' :: "231B".toList) :=
      .range (padded_refl _) (padded_refl _) (by decide +kernel)
    @DataRow.Written.line row _ ['A'] [] hfield (padded_refl ['A']) (by decide) (by simp)
  have hspaced : row.Written " 231A\t..  231B ; A ; watch # 2".toList :=
    have hfield : row.parts.Written (" 231A\t".toList ++ '.' :: '.' :: "  231B ".toList) :=
      .range ⟨[' '], ['\t'], by decide, by decide, rfl⟩
        ⟨[' ', ' '], [' '], by decide, by decide, rfl⟩ (by decide +kernel)
    @DataRow.Written.line row _ " A ".toList "; watch # 2".toList hfield
      ⟨[' '], [' '], by decide, by decide, rfl⟩ (by decide) (by simp)
  have hformats : Reformatted "231A..231B;A".toList " 231A\t..  231B ; A ; watch # 2".toList := by
    rw [Reformatted, List.splitOn_eq_singleton (by decide), List.splitOn_eq_singleton (by decide)]
    exact .cons (.inr ⟨row, hplain, hspaced⟩) .nil
  refine ⟨hformats, ?_⟩
  rw [← (formatting_is_irrelevant empty).2.2 _ _ hformats]
  rfl

/-- White space between a full stop and the first `..` cannot be moved behind that `..`, for then
another `..` is the first. -/
theorem range_behind_a_stop :
    Padded "1.".toList "1. ".toList ∧ Padded "2".toList " 2".toList ∧
      splitAtDots? ("1. ".toList ++ "..".toList ++ "2".toList) =
        some ("1. ".toList, "2".toList) ∧
      (empty.addFile ("1. ".toList ++ "..".toList ++ "2".toList ++ " ; X".toList)).2 =
        some (.line 1 (.codePoint "1.")) ∧
      (empty.addFile ("1.".toList ++ "..".toList ++ " 2".toList ++ " ; X".toList)).2 =
        some (.line 1 (.codePoint ". 2")) := by
  refine ⟨⟨[], [' '], by decide, by decide, rfl⟩, ⟨[' '], [], by decide, by decide, rfl⟩, ?_⟩
  decide +kernel

end SequenceData

end EmojiPatterns
