import EmojiPatterns.Proofs.SequenceOrder
import EmojiPatterns.Proofs.SoundLines
import EmojiPatterns.Proofs.WrittenNumerals

/-!
# Data that is written and read back

Data is written with its version on the first line and then name by name, each sequence on a line of
its own or characters that follow one another as a range.  Every such text is read back as the data
it was written for.  Main statement: `SequenceData.written_data_reads_back`.
-/

namespace EmojiPatterns

/-! ### Sequences and ranges -/

/-- The code points of a sequence with blanks between them. -/
def Sequence.bare (sequence : Sequence) : String :=
  " ".intercalate (sequence.chars.map fun c => Numeral.codePoint c.toNat)

theorem Sequence.toString_eq_bare (sequence : Sequence) :
    sequence.toString = "[" ++ sequence.bare ++ "]" := rfl

/-- A part of a list that is written on one line. -/
inductive Portion where
  | one (sequence : Sequence)
  /-- Characters whose code points follow one another. -/
  | run (first : Char) (rest : List Char)
      (hrun : (first :: rest).map Char.toNat = List.range' first.toNat (rest.length + 1))

namespace Portion

/-- The field of code points on the line. -/
def field : Portion → String
  | one sequence => sequence.bare
  | run first rest _ =>
    Numeral.codePoint first.toNat ++ ".." ++ Numeral.codePoint (first.toNat + rest.length)

def sequences : Portion → List Sequence
  | one sequence => [sequence]
  | run first rest _ => (first :: rest).map Sequence.singleton

end Portion

theorem Sequence.toList_bare (sequence : Sequence) :
    sequence.bare.toList =
      [' '].intercalate (sequence.chars.map fun c => (Numeral.codePoint c.toNat).toList) := by
  simp [bare, String.toList_intercalate, Function.comp_def]

theorem trimmed_codePoint (value : Nat) : Trimmed (Numeral.codePoint value).toList :=
  trimmed_of_visible (Numeral.codePoint_ne_nil value)
    (Numeral.digits_codePoint value).isWhiteSpace_eq_false

theorem trimmed_intercalate {words : List (List Char)} (hne : words ≠ [])
    (hwords : ∀ word ∈ words, Trimmed word) : Trimmed ([' '].intercalate words) := by
  induction words with
  | nil => exact absurd rfl hne
  | cons word rest ih =>
    obtain ⟨hword, hrest⟩ := List.forall_mem_cons.mp hwords
    by_cases hnil : rest = []
    · subst hnil
      rw [List.intercalate_singleton]
      exact hword
    · rw [List.intercalate_cons_of_ne_nil hnil, List.append_assoc]
      exact hword.around (ih hnil hrest) [' ']

theorem not_mem_intercalate {c sep : Char} {words : List (List Char)} (hsep : c ≠ sep)
    (hwords : ∀ word ∈ words, c ∉ word) : c ∉ [sep].intercalate words := by
  induction words with
  | nil => exact List.not_mem_nil
  | cons word rest ih =>
    obtain ⟨hword, hrest⟩ := List.forall_mem_cons.mp hwords
    by_cases hnil : rest = []
    · subst hnil
      rw [List.intercalate_singleton]
      exact hword
    · rw [List.intercalate_cons_of_ne_nil hnil]
      simp [hword, hsep, ih hrest]

/-- A sequence is written with no signs but digits and blanks. -/
theorem Sequence.not_mem_bare (sequence : Sequence) {x : Char}
    (hdigit : ∀ value : Fin 36, Numeral.digit value ≠ x) (hblank : x ≠ ' ') :
    x ∉ sequence.bare.toList := by
  rw [toList_bare]
  apply not_mem_intercalate hblank
  exact List.forall_mem_map.mpr fun c _ => (Numeral.digits_codePoint c.toNat).not_mem hdigit

theorem Sequence.trimmed_bare (sequence : Sequence) : Trimmed sequence.bare.toList := by
  rw [toList_bare]
  apply trimmed_intercalate
  · simpa using sequence.nonempty
  · exact List.forall_mem_map.mpr fun c _ => trimmed_codePoint c.toNat

theorem Sequence.wordsOf_bare (sequence : Sequence) :
    wordsOf sequence.bare.toList =
      sequence.chars.map fun c => (Numeral.codePoint c.toNat).toList := by
  rw [toList_bare]
  apply wordsOf_intercalate
  refine List.forall_mem_map.mpr fun c _ => ⟨Numeral.codePoint_ne_nil c.toNat, ?_⟩
  exact (Numeral.digits_codePoint c.toNat).isWhiteSpace_eq_false

namespace FieldReading

theorem codePoint_toNat (c : Char) :
    codePoint (Numeral.codePoint c.toNat).toList = .ok c.toNat :=
  codePoint_eq_ok_iff.mpr (Numeral.readCodePoint?_codePoint c.val.toNat_lt)

theorem codePoints_toNat (chars : List Char) :
    codePoints (chars.map fun c => (Numeral.codePoint c.toNat).toList) =
      .ok (chars.map Char.toNat) := by
  induction chars with
  | nil => rfl
  | cons c rest ih => simp [codePoints, codePoint_toNat, ih, Except.map]

end FieldReading

namespace Portion

variable (portion : Portion)

theorem trimmed_field : Trimmed portion.field.toList := by
  cases portion with
  | one sequence => exact sequence.trimmed_bare
  | run first rest =>
    simp only [field, String.toList_append, List.append_assoc]
    exact (trimmed_codePoint _).around (trimmed_codePoint _) _

/-- A field has no signs but digits, blanks and points. -/
theorem not_mem_field {x : Char} (hdigit : ∀ value : Fin 36, Numeral.digit value ≠ x)
    (hblank : x ≠ ' ') (hpoint : x ≠ '.') : x ∉ portion.field.toList := by
  cases portion with
  | one sequence => exact sequence.not_mem_bare hdigit hblank
  | run first rest => simp [field, (Numeral.digits_codePoint _).not_mem hdigit, hpoint]

/-- The field of a portion is read as its sequences. -/
theorem ofField_field :
    FieldReading.ofField portion.field.toList = ⟨portion.sequences, none⟩ := by
  cases portion with
  | one sequence =>
    have hdots : splitAtDots? sequence.bare.toList = none :=
      splitAtDots?_of_not_mem (sequence.not_mem_bare (by decide) (by decide))
    have hread : Sequence.ofCodePoints (sequence.chars.map Char.toNat) = .ok sequence :=
      Sequence.ofCodePoints_eq_ok_iff.mpr rfl
    simp only [field, FieldReading.ofField, hdots, sequence.wordsOf_bare,
      FieldReading.codePoints_toNat, hread, sequences]
  | run first rest hrun =>
    -- The end of the range is a character too, and is read back as one.
    obtain ⟨last, hlast⟩ : ∃ last : Char, last.toNat = first.toNat + rest.length := by
      have hmem : first.toNat + rest.length ∈ (first :: rest).map Char.toNat := by
        rw [hrun, List.mem_range'_1]
        omega
      obtain ⟨last, -, hlast⟩ := List.mem_map.mp hmem
      exact ⟨last, hlast⟩
    have hfield : (run first rest hrun).field.toList =
        (Numeral.codePoint first.toNat).toList ++
          '.' :: '.' :: (Numeral.codePoint last.toNat).toList := by
      simp [field, hlast]
    have hrange : FieldReading.range first.toNat last.toNat =
        ⟨(first :: rest).map Sequence.singleton, none⟩ := by
      rw [FieldReading.range_eq_expand, hlast, Nat.add_assoc, Nat.add_sub_cancel_left, ← hrun,
        FieldReading.expand_toNat]
    have hpoint : '.' ∉ (Numeral.codePoint first.toNat).toList :=
      (Numeral.digits_codePoint first.toNat).not_mem (by decide)
    simp only [FieldReading.ofField, hfield, splitAtDots?_append hpoint,
      (trimmed_codePoint _).trim_eq, FieldReading.codePoint_toNat, hrange, sequences]
    rw [if_neg (by omega)]

end Portion

/-! ### Lines -/

/-- A name that a line can hold: not empty, without white space at its ends, and without the signs
that end a field, the content of a line or the line. -/
structure PlainName (name : String) : Prop where
  trimmed : Trimmed name.toList
  unmarked : '#' ∉ name.toList ∧ ';' ∉ name.toList ∧ '\n' ∉ name.toList

theorem Version.trimmed_toString (version : Version) : Trimmed version.toString.toList := by
  have hdecimal : ∀ value, Trimmed (Numeral.decimal value).toList := fun value =>
    trimmed_of_visible (Numeral.decimal_ne_nil value)
      (Numeral.digits_decimal value).isWhiteSpace_eq_false
  simp only [toString, String.toList_append, List.append_assoc]
  exact (hdecimal _).around (hdecimal _) _

namespace DataLine

/-- The line that lists what a field says under a name. -/
def ofField (name : String) (field : List Char) : List Char :=
  field ++ ([' ', ';', ' '] ++ name.toList)

section

variable {name : String} {field : List Char} (hname : PlainName name) (hmark : '#' ∉ field)

include hname hmark

theorem mark_not_mem_ofField : '#' ∉ ofField name field := by
  simp [ofField, hmark, hname.unmarked.1]

theorem fields_ofField (hsemicolon : ';' ∉ field) :
    fields (ofField name field) = [trim field, name.toList] := by
  have hcontent : (ofField name field).takeWhile (· ≠ '#') =
      (field ++ [' ']) ++ ';' :: ' ' :: name.toList := by
    rw [List.takeWhile_eq_self_iff.mpr, ofField]
    · simp
    · intro c hmem
      simpa using ne_of_mem_of_not_mem hmem (mark_not_mem_ofField hname hmark)
  have hfield : ';' ∉ field ++ [' '] := by
    rw [List.mem_append, not_or]
    exact ⟨hsemicolon, by decide⟩
  have hrest : ';' ∉ ' ' :: name.toList := by simp [hname.unmarked.2.1]
  rw [fields, hcontent, List.splitOn_append_cons_self_of_not_mem hfield,
    List.splitOn_eq_singleton hrest, List.map_cons, List.map_singleton, trim_concat (by decide),
    trim_cons (by decide), hname.trimmed.trim_eq]

/-- A field without the signs that end it is read as an entry for its name. -/
theorem read_ofField (hsemicolon : ';' ∉ field) :
    read (ofField name field) = .ok (.entry name (trim field)) := by
  apply read_eq_entry_iff.mpr
  refine ⟨headerValue?_of_not_mem (mark_not_mem_ofField hname hmark), ?_, [],
    fields_ofField hname hmark hsemicolon⟩
  rintro rfl
  exact hname.trimmed.nonempty rfl

end

/-- The line that lists a portion under a name. -/
def ofPortion (name : String) (portion : Portion) : List Char :=
  (portion.field ++ " ; " ++ name).toList

/-- The line that declares a version. -/
def ofVersion (version : Version) : List Char :=
  ("# Version: " ++ version.toString).toList

theorem ofPortion_eq (name : String) (portion : Portion) :
    ofPortion name portion = ofField name portion.field.toList := by
  simp [ofPortion, ofField]

theorem ofVersion_eq (version : Version) :
    ofVersion version = ['#'] ++ (" Version: ".toList ++ version.toString.toList) := by
  simp [ofVersion]

/-- A line has the signs of its name, and else no others than its field has and a semicolon. -/
theorem not_mem_ofPortion {name : String} (portion : Portion) {x : Char}
    (hdigit : ∀ value : Fin 36, Numeral.digit value ≠ x) (hsigns : x ≠ ' ' ∧ x ≠ '.' ∧ x ≠ ';')
    (hx : x ∉ name.toList) : x ∉ ofPortion name portion := by
  simp [ofPortion_eq, ofField, portion.not_mem_field hdigit hsigns.1 hsigns.2.1, hsigns, hx]

section

variable {name : String} (hname : PlainName name) (portion : Portion)

include hname

theorem trimmed_ofPortion : Trimmed (ofPortion name portion) := by
  rw [ofPortion_eq, ofField]
  exact portion.trimmed_field.around hname.trimmed _

/-- A line that is written for a portion is read as an entry. -/
theorem read_ofPortion :
    read (ofPortion name portion) = .ok (.entry name portion.field.toList) := by
  have hmark : '#' ∉ portion.field.toList :=
    portion.not_mem_field (by decide) (by decide) (by decide)
  have hsemicolon : ';' ∉ portion.field.toList :=
    portion.not_mem_field (by decide) (by decide) (by decide)
  rw [ofPortion_eq, read_ofField hname hmark hsemicolon, portion.trimmed_field.trim_eq]

end

theorem trimmed_ofVersion (version : Version) : Trimmed (ofVersion version) := by
  have hmark : Trimmed ['#'] :=
    trimmed_of_visible (List.cons_ne_nil _ _) (List.forall_mem_singleton.mpr (by decide))
  rw [ofVersion_eq]
  exact hmark.around version.trimmed_toString _

theorem newline_not_mem_ofVersion (version : Version) : '\n' ∉ ofVersion version := by
  have hdecimal : ∀ value, '\n' ∉ (Numeral.decimal value).toList :=
    fun value => (Numeral.digits_decimal value).not_mem (by decide)
  simp [ofVersion_eq, Version.toString, hdecimal]

theorem read_ofVersion (version : Version) :
    read (ofVersion version) = .ok (.header version) := by
  have hvalue : headerValue? (ofVersion version) = some version.toString.toList := by
    have hprefix : dropPrefix? "Version:".toList
        (trimStart (" Version: ".toList ++ version.toString.toList)) =
          some (' ' :: version.toString.toList) := by
      rw [dropPrefix?_eq_some_iff]
      rfl
    rw [ofVersion_eq, List.singleton_append, headerValue?, hprefix, Option.map_some,
      trim_cons (by decide), version.trimmed_toString.trim_eq]
  rw [read, hvalue]
  simp only [version.read?_toString]

/-! ### What the lines say -/

theorem reading_ofVersion (version : Version) :
    faults (ofVersion version) = [] ∧ versions (ofVersion version) = [version] ∧
      listing (ofVersion version) = [] := by
  simp [faults, versions, listing, read_ofVersion]

theorem reading_ofPortion {name : String} (hname : PlainName name) (portion : Portion) :
    faults (ofPortion name portion) = [] ∧ versions (ofPortion name portion) = [] ∧
      listing (ofPortion name portion) = [(name, portion.sequences)] := by
  simp [faults, versions, listing, read_ofPortion hname, portion.ofField_field]

end DataLine

namespace SequenceData

/-! ### Texts -/

/-- The lines for a version and for names with their lists, which are divided into portions. -/
def lines (version? : Option Version) (layout : List (String × List Portion)) :
    List (List Char) :=
  version?.toList.map DataLine.ofVersion ++
    layout.flatMap fun entry => entry.2.map (DataLine.ofPortion entry.1)

/-- The lists that are divided into portions. -/
def contents (layout : List (String × List Portion)) : List (String × List Sequence) :=
  layout.map fun entry => (entry.1, entry.2.flatMap Portion.sequences)

/-- Lists with each sequence on a line of its own. -/
def onePerLine (lists : NamedLists) : List (String × List Portion) :=
  lists.entries.map fun entry => (entry.1, entry.2.map Portion.one)

theorem contents_onePerLine (lists : NamedLists) : contents (onePerLine lists) = lists.entries := by
  simp [contents, onePerLine, Function.comp_def, List.flatMap_map, Portion.sequences]

section

variable {layout : List (String × List Portion)} (hnames : ∀ entry ∈ layout, PlainName entry.1)
  (version? : Option Version)

include hnames

/-- What is found in the lines is found in their version and their portions. -/
theorem flatMap_lines {β : Type} {f : List Char → List β} {g : String → Portion → List β}
    (hportion : ∀ name portion, PlainName name →
      f (DataLine.ofPortion name portion) = g name portion) :
    (lines version? layout).flatMap f =
      version?.toList.flatMap (fun version => f (DataLine.ofVersion version)) ++
        layout.flatMap fun entry => entry.2.flatMap (g entry.1) := by
  rw [lines, List.flatMap_append, List.flatMap_map, List.flatMap_assoc]
  congr 1
  apply List.flatMap_congr
  intro entry hentry
  rw [List.flatMap_map]
  apply List.flatMap_congr
  intro portion _
  exact hportion entry.1 portion (hnames entry hentry)

theorem faults_lines : (lines version? layout).flatMap DataLine.faults = [] := by
  rw [flatMap_lines hnames version?
    fun name portion hname => (DataLine.reading_ofPortion hname portion).1]
  simp [DataLine.reading_ofVersion]

theorem versions_lines :
    (lines version? layout).flatMap DataLine.versions = version?.toList := by
  rw [flatMap_lines hnames version?
    fun name portion hname => (DataLine.reading_ofPortion hname portion).2.1]
  simp [DataLine.reading_ofVersion]

theorem listing_lines :
    (lines version? layout).flatMap DataLine.listing =
      layout.flatMap fun entry =>
        entry.2.map fun portion => (entry.1, portion.sequences) := by
  rw [flatMap_lines hnames version?
    fun name portion hname => (DataLine.reading_ofPortion hname portion).2.2]
  cases version? <;> simp [DataLine.reading_ofVersion, List.map_eq_flatMap]

theorem trimmed_lines :
    ∀ line ∈ lines version? layout, Trimmed line ∧ '\n' ∉ line := by
  intro line hline
  rcases List.mem_append.mp hline with hversion | hportion
  · obtain ⟨version, -, rfl⟩ := List.mem_map.mp hversion
    exact ⟨DataLine.trimmed_ofVersion version, DataLine.newline_not_mem_ofVersion version⟩
  · obtain ⟨entry, hentry, hportion⟩ := List.mem_flatMap.mp hportion
    obtain ⟨portion, -, rfl⟩ := List.mem_map.mp hportion
    have hname := hnames entry hentry
    exact ⟨DataLine.trimmed_ofPortion hname portion,
      DataLine.not_mem_ofPortion portion (by decide) (by decide) hname.unmarked.2.2⟩

end

/-- Where lists are divided into portions, these come under the names of the lists. -/
theorem mem_of_contents {lists : NamedLists} {layout : List (String × List Portion)}
    (hlayout : contents layout = lists.entries) :
    ∀ entry ∈ layout, (entry.1, entry.2.flatMap Portion.sequences) ∈ lists.entries := by
  intro entry hentry
  rw [← hlayout]
  exact List.mem_map_of_mem hentry

theorem plainName_of_contents {lists : NamedLists} {layout : List (String × List Portion)}
    (hnames : ∀ entry ∈ lists.entries, PlainName entry.1)
    (hlayout : contents layout = lists.entries) : ∀ entry ∈ layout, PlainName entry.1 :=
  fun entry hentry => hnames _ (mem_of_contents hlayout entry hentry)

section

variable {data : SequenceData} (hnames : ∀ entry ∈ data.lists.entries, PlainName entry.1)
  (hlists : ∀ entry ∈ data.lists.entries, entry.2 ≠ []) {layout : List (String × List Portion)}
  (hlayout : contents layout = data.lists.entries)

include hnames hlists hlayout

/-- The lines for data give the data. -/
theorem addLines_lines : empty.addLines 1 (lines data.version layout) = (data, none) := by
  have hplain := plainName_of_contents hnames hlayout
  have hportions : ∀ entry ∈ layout, entry.2 ≠ [] := by
    intro entry hentry hnil
    exact hlists _ (mem_of_contents hlayout entry hentry) (by simp [hnil])
  have hsound : (empty.addLines 1 (lines data.version layout)).2 = none := by
    rw [snd_addLines_eq_none_iff, faults_lines hplain, versions_lines hplain]
    exact ⟨rfl, sameVersion_toList data.version⟩
  obtain ⟨after, hafter⟩ : ∃ after, empty.addLines 1 (lines data.version layout) = (after, none) :=
    ⟨_, Prod.ext rfl hsound⟩
  have hversion : after.version = data.version := by
    apply Option.ext
    intro version
    have hmem := mem_version_of_addLines hafter version
    rw [versions_lines hplain] at hmem
    simpa [empty] using hmem
  have hcontents : after.lists = data.lists := by
    apply NamedLists.ext_get?
    intro name
    rw [lists_of_addLines hafter, listing_lines hplain]
    calc (NamedLists.ofEntries (layout.flatMap fun entry =>
          entry.2.map fun portion => (entry.1, portion.sequences))).get? name
        = listedUnder? name (contents layout) := by
          rw [NamedLists.get?_ofEntries, listedUnder?_portions hportions, contents]
      _ = data.lists.get? name := by rw [hlayout, NamedLists.get?_eq_listedUnder?]
  rw [hafter]
  cases after
  cases data
  simp_all

theorem ofFile_lines : ofFile (closeLines (lines data.version layout)) = .ok data ∧
    ofFile (joinLines (lines data.version layout)) = .ok data := by
  have hplain := plainName_of_contents hnames hlayout
  obtain ⟨hclosed, hjoined⟩ := linesOf_trimmed (trimmed_lines hplain data.version)
  have hlines := addLines_lines hnames hlists hlayout
  constructor
  · rw [ofFile, addFile, hclosed, hlines]
  · rw [ofFile, addFile, hjoined, hlines]

end

/-- Data whose names can stand on a line and have sequences is read back from the text that is
written for it, be each sequence on a line of its own or some of them in ranges, and whether or not
the last line is closed. -/
theorem written_data_reads_back {data : SequenceData}
    (hnames : ∀ entry ∈ data.lists.entries, PlainName entry.1)
    (hlists : ∀ entry ∈ data.lists.entries, entry.2 ≠ []) :
    ofFile (closeLines (lines data.version (onePerLine data.lists))) = .ok data ∧
      ∀ layout, contents layout = data.lists.entries →
        ofFile (closeLines (lines data.version layout)) = .ok data ∧
          ofFile (joinLines (lines data.version layout)) = .ok data :=
  ⟨(ofFile_lines hnames hlists (contents_onePerLine data.lists)).1,
    fun _ hlayout => ofFile_lines hnames hlists hlayout⟩

/-- A range and a keycap, under a name with a blank in it. -/
theorem written_data_reads_back_range :
    ∃ data : SequenceData, data.version = some .pinned ∧
      data.sequences? "Basic Emoji" =
        some [.singleton 'a', .singleton 'b', .singleton 'c', ⟨['#', '\u20E3'], by simp⟩] ∧
      ofFile ("# Version: 15.1\n0061 ; Basic Emoji\n0062 ; Basic Emoji\n0063 ; Basic Emoji\n" ++
        "0023 20E3 ; Basic Emoji\n").toList = .ok data ∧
      ofFile "# Version: 15.1\n0061..0063 ; Basic Emoji\n0023 20E3 ; Basic Emoji\n".toList =
        .ok data := by
  let keycap : Sequence := ⟨['#', '\u20E3'], by simp⟩
  let data : SequenceData := ⟨some .pinned,
    ⟨[("Basic Emoji", [.singleton 'a', .singleton 'b', .singleton 'c', keycap])],
      List.pairwise_singleton _ _⟩⟩
  let layout := [("Basic Emoji", [Portion.run 'a' ['b', 'c'] (by decide), .one keycap])]
  have hname : PlainName "Basic Emoji" := by
    have hends : "Basic Emoji".toList.head? = some 'B' ∧
        "Basic Emoji".toList.getLast? = some 'i' := by decide
    refine ⟨⟨by decide, ?_, ?_⟩, by decide⟩
    · rw [hends.1]
      rintro c ⟨⟩
      decide
    · rw [hends.2]
      rintro c ⟨⟩
      decide
  obtain ⟨hplain, hlayouts⟩ := @written_data_reads_back data
    (List.forall_mem_singleton.mpr hname) (List.forall_mem_singleton.mpr (List.cons_ne_nil _ _))
  refine ⟨data, rfl, rfl, ?_, ?_⟩
  · have htext : closeLines (lines data.version (onePerLine data.lists)) =
        ("# Version: 15.1\n0061 ; Basic Emoji\n0062 ; Basic Emoji\n0063 ; Basic Emoji\n" ++
          "0023 20E3 ; Basic Emoji\n").toList := by
      decide +kernel
    exact htext ▸ hplain
  · have htext : closeLines (lines data.version layout) =
        "# Version: 15.1\n0061..0063 ; Basic Emoji\n0023 20E3 ; Basic Emoji\n".toList := by
      decide +kernel
    exact htext ▸ (hlayouts layout rfl).1

end SequenceData

end EmojiPatterns
