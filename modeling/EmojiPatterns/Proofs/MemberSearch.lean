import EmojiPatterns.Proofs.PatternEnds
import EmojiPatterns.Proofs.PropertyEscape
import EmojiPatterns.Proofs.SetMembers
import EmojiPatterns.Proofs.TableSets

/-!
# Searching for what data files list

The escape of a property, compiled with the table of some data files, matches just the sequences
that the files list for it, and a search with it finds the longest of them at the first place where
one stands.  Main statement: `Pattern.escape_finds_listed_sequences`.
-/

namespace EmojiPatterns

variable {text : List Char}

/-- Whether a word stands at a byte offset of a text. -/
def StandsAt (word text : List Char) (offset : Nat) : Prop :=
  ∃ before after, text = before ++ word ++ after ∧ utf8Length before = offset

/-- A word stands at an offset if it lies ahead of the place with that offset. -/
theorem standsAt_iff {word : List Char} {offset : Nat} :
    StandsAt word text offset ↔
      ∃ c d : Cursor text, c.offset = offset ∧ c.ahead = word ++ d.ahead := by
  constructor
  · intro hstands
    obtain ⟨before, after, rfl, rfl⟩ := hstands
    refine ⟨⟨utf8Length before, word ++ after, before, ?_, rfl⟩,
      ⟨utf8Length (before ++ word), after, before ++ word, rfl, rfl⟩, rfl, rfl⟩
    exact (List.append_assoc before word after).symm
  · intro hplaces
    obtain ⟨c, d, rfl, hahead⟩ := hplaces
    obtain ⟨behind, htext, hoffset⟩ := c.split
    refine ⟨behind, d.ahead, htext.symm.trans ?_, hoffset⟩
    rw [hahead, List.append_assoc]

theorem standsAt_offset_iff {word : List Char} {c : Cursor text} :
    StandsAt word text c.offset ↔ ∃ d : Cursor text, c.ahead = word ++ d.ahead := by
  rw [standsAt_iff]
  constructor
  · intro hplaces
    obtain ⟨e, d, hoffset, hahead⟩ := hplaces
    rw [Cursor.ext_offset hoffset] at hahead
    exact ⟨d, hahead⟩
  · intro hword
    obtain ⟨d, hahead⟩ := hword
    exact ⟨c, d, rfl, hahead⟩

namespace Pattern

/-- A pattern that matches just the members of a language, and of those that stand at the first
place where any stands finds the longest. -/
structure Finds (pattern : Pattern) (member : List Char → Prop) : Prop where
  isFullMatch_iff : ∀ text, pattern.isFullMatch text = true ↔ member text
  find_eq_none_iff : ∀ text, pattern.find text = none ↔
    ∀ word offset, member word → ¬ StandsAt word text offset
  leftmost : ∀ text span, pattern.find text = some span →
    ∀ word offset, member word → StandsAt word text offset → span.start ≤ offset
  longest : ∀ text span, pattern.find text = some span →
    ∃ word, member word ∧ StandsAt word text span.start ∧
      span.stop = span.start + utf8Length word ∧
        ∀ other, member other → StandsAt other text span.start → other.length ≤ word.length

theorem Finds.congr {pattern : Pattern} {member other : List Char → Prop}
    (hfinds : pattern.Finds member) (hmember : ∀ word, member word ↔ other word) :
    pattern.Finds other := by
  have hsame : member = other := funext fun word => propext (hmember word)
  exact hsame ▸ hfinds

section

variable (set : StringSet) (merge : Bool) (source : List Char)

theorem ends_fragment_eq_nil_iff {c : Cursor text} :
    Node.ends (.strings (set.fragment merge)) c = [] ↔
      ∀ sequence ∈ set.sequences, ¬ StandsAt sequence.chars text c.offset := by
  rw [List.eq_nil_iff_forall_not_mem]
  constructor
  · intro hnone sequence hsequence hstands
    obtain ⟨d, hahead⟩ := standsAt_offset_iff.mp hstands
    exact hnone d ((set.mem_ends_fragment_iff merge).mpr ⟨sequence, hsequence, hahead⟩)
  · intro hnone d hend
    obtain ⟨sequence, hsequence, hahead⟩ := (set.mem_ends_fragment_iff merge).mp hend
    exact hnone sequence hsequence (standsAt_offset_iff.mpr ⟨d, hahead⟩)

theorem isFullMatch_fragment_iff :
    isFullMatch ⟨source, .strings (set.fragment merge)⟩ text = true ↔
      ∃ sequence ∈ set.sequences, sequence.chars = text := by
  rw [isFullMatch_iff]
  constructor
  · intro hends
    obtain ⟨d, hend, hoffset⟩ := hends
    obtain ⟨sequence, hsequence, hahead⟩ := (set.mem_ends_fragment_iff merge).mp hend
    have hnil : d.ahead = [] := Cursor.atEnd_iff_offset.mpr hoffset
    rw [hnil, List.append_nil] at hahead
    exact ⟨sequence, hsequence, hahead.symm⟩
  · intro hmember
    obtain ⟨sequence, hsequence, rfl⟩ := hmember
    have hstart : (Cursor.start sequence.chars).ahead = sequence.chars ++ [] :=
      (List.append_nil _).symm
    obtain ⟨d, hnil⟩ := Cursor.exists_ahead_eq hstart
    have hahead : (Cursor.start sequence.chars).ahead = sequence.chars ++ d.ahead := by
      rw [hnil, hstart]
    exact ⟨d, (set.mem_ends_fragment_iff merge).mpr ⟨sequence, hsequence, hahead⟩,
      Cursor.atEnd_iff_offset.mp hnil⟩

theorem find_fragment_eq_none_iff :
    find ⟨source, .strings (set.fragment merge)⟩ text = none ↔
      ∀ sequence ∈ set.sequences, ∀ offset, ¬ StandsAt sequence.chars text offset := by
  rw [find_eq_none_iff]
  simp only [ends_fragment_eq_nil_iff]
  constructor
  · intro hnone sequence hsequence offset hstands
    obtain ⟨c, d, rfl, hahead⟩ := standsAt_iff.mp hstands
    exact hnone c sequence hsequence hstands
  · intro hnone c sequence hsequence
    exact hnone sequence hsequence c.offset

variable {set merge source} {span : Span}

theorem leftmost_of_find_fragment
    (hfind : find ⟨source, .strings (set.fragment merge)⟩ text = some span) {sequence : Sequence}
    {offset : Nat} (hsequence : sequence ∈ set.sequences)
    (hstands : StandsAt sequence.chars text offset) : span.start ≤ offset := by
  obtain ⟨c, d, -, hbefore, rfl⟩ := find_eq_some_iff.mp hfind
  obtain ⟨e, f, rfl, -⟩ := standsAt_iff.mp hstands
  apply Nat.le_of_not_lt
  intro hlt
  exact (ends_fragment_eq_nil_iff set merge).mp (hbefore e hlt) sequence hsequence hstands

theorem longest_of_find_fragment
    (hfind : find ⟨source, .strings (set.fragment merge)⟩ text = some span) :
    ∃ sequence ∈ set.sequences, StandsAt sequence.chars text span.start ∧
      span.stop = span.start + utf8Length sequence.chars ∧
        ∀ other ∈ set.sequences, StandsAt other.chars text span.start →
          other.length ≤ sequence.length := by
  obtain ⟨c, d, hhead, -, rfl⟩ := find_eq_some_iff.mp hfind
  obtain ⟨sequence, hsequence, hahead, hlongest⟩ := set.longest_of_head?_ends merge hhead
  refine ⟨sequence, hsequence, standsAt_offset_iff.mpr ⟨d, hahead⟩,
    Cursor.offset_eq_of_ahead_eq hahead, ?_⟩
  intro other hother hstands
  obtain ⟨e, hrest⟩ := standsAt_offset_iff.mp hstands
  exact hlongest other hother e.ahead hrest

end

/-- A pattern that is just the fragment of a set finds its members. -/
theorem finds_of_fragment (set : StringSet) (merge : Bool) (source : List Char) :
    Finds ⟨source, .strings (set.fragment merge)⟩ fun word =>
      ∃ sequence ∈ set.sequences, sequence.chars = word := by
  constructor
  case isFullMatch_iff =>
    intro text
    exact isFullMatch_fragment_iff set merge source
  case find_eq_none_iff =>
    intro text
    rw [find_fragment_eq_none_iff]
    constructor
    · rintro hnone word offset ⟨sequence, hsequence, rfl⟩
      exact hnone sequence hsequence offset
    · intro hnone sequence hsequence offset
      exact hnone sequence.chars offset ⟨sequence, hsequence, rfl⟩
  case leftmost =>
    rintro text span hfind word offset ⟨sequence, hsequence, rfl⟩ hstands
    exact leftmost_of_find_fragment hfind hsequence hstands
  case longest =>
    intro text span hfind
    obtain ⟨sequence, hsequence, hstands, hstop, hlongest⟩ := longest_of_find_fragment hfind
    refine ⟨sequence.chars, ⟨sequence, hsequence, rfl⟩, hstands, hstop, ?_⟩
    rintro word ⟨other, hother, rfl⟩ hword
    exact hlongest other hother hword

/-- The escape of a name that has a set compiles to the fragment of the set. -/
theorem compile_escape_of_lookup? {resolver : Resolver} {name : String} {set : StringSet}
    (hset : resolver.table.lookup? name = some set) :
    compile resolver (PropertyReference.escape name) =
      .ok ⟨PropertyReference.escape name, .strings (set.fragment resolver.merge)⟩ := by
  obtain ⟨property, hproperty, -⟩ := Option.bind_eq_some_iff.mp hset
  rw [StringProperty.ofName?_eq_some_iff] at hproperty
  have hname : name.toList ≠ [] ∧ '\x7d' ∉ name.toList := by
    rw [← hproperty]
    cases property <;> decide
  rw [compile_escape resolver hname.1 hname.2]
  simp only [Draft.resolve, Resolver.resolve, PropertyReference.ofEscape, hset]
  rfl

/-- After files without a fault and a table made of them, the escape of each name in the data finds
what the lines of the files list for it.  Where only other names are listed, the escape of
`RGI_Emoji` finds all that is listed. -/
theorem escape_finds_listed_sequences {files : List (List Char)} {data : SequenceData}
    {version : Version} {table : Table}
    (hfiles : SequenceData.empty.addFiles files = (data, none))
    (htable : data.table version = .ok table) (charProperty? : String → Option (Char → Bool))
    (merge : Bool) :
    (∀ name, data.sequences? name = listedUnder? name (SequenceData.listing files)) ∧
    (∀ name sequences, data.sequences? name = some sequences →
      ∃ pattern,
        compile ⟨table, charProperty?, merge⟩ (PropertyReference.escape name) = .ok pattern ∧
          pattern.Finds fun word => ∃ sequence ∈ sequences, sequence.chars = word) ∧
    ((∃ name, (data.sequences? name).isSome = true) → data.sequences? "RGI_Emoji" = none →
      ∃ pattern,
        compile ⟨table, charProperty?, merge⟩ (PropertyReference.escape "RGI_Emoji") =
            .ok pattern ∧
          pattern.Finds fun word => ∃ name sequences, data.sequences? name = some sequences ∧
            ∃ sequence ∈ sequences, sequence.chars = word) := by
  refine ⟨SequenceData.sequences?_of_addFiles hfiles, ?_, ?_⟩
  · intro name sequences hlisted
    obtain ⟨set, hset, hmem⟩ := SequenceData.lookup?_of_table htable hlisted
    refine ⟨_, compile_escape_of_lookup? hset, (finds_of_fragment set merge _).congr ?_⟩
    simp only [hmem, implies_true]
  · intro hsome hnone
    obtain ⟨set, hset, hmem⟩ := SequenceData.lookup?_rgiEmoji_of_table htable hnone hsome
    refine ⟨_, compile_escape_of_lookup? hset, (finds_of_fragment set merge _).congr ?_⟩
    intro word
    simp only [hmem]
    constructor
    · intro hmember
      obtain ⟨sequence, ⟨name, sequences, hlisted, hsequence⟩, hword⟩ := hmember
      exact ⟨name, sequences, hlisted, sequence, hsequence, hword⟩
    · intro hmember
      obtain ⟨name, sequences, hlisted, sequence, hsequence, hword⟩ := hmember
      exact ⟨sequence, ⟨name, sequences, hlisted, hsequence⟩, hword⟩

theorem escape_finds_keycaps :
    ∃ (data : SequenceData) (table : Table) (pattern : Pattern),
      SequenceData.empty.addFiles ["23 FE0F 20E3 ; Emoji_Keycap_Sequence # keycap".toList] =
          (data, none) ∧
        data.table .pinned = .ok table ∧
          compile ⟨table, fun _ => none, true⟩ (PropertyReference.escape "RGI_Emoji") =
              .ok pattern ∧
            pattern.isFullMatch ['#', '\uFE0F', '\u20E3'] = true := by
  let keycap : Sequence := ⟨['#', '\uFE0F', '\u20E3'], by simp⟩
  let data : SequenceData :=
    ⟨none, ⟨[("Emoji_Keycap_Sequence", [keycap])], List.pairwise_singleton _ _⟩⟩
  have hfiles : SequenceData.empty.addFiles
      ["23 FE0F 20E3 ; Emoji_Keycap_Sequence # keycap".toList] = (data, none) := by
    decide +kernel
  have htable : ∃ table, data.table .pinned = .ok table := by
    have hname : StringProperty.ofName? "Emoji_Keycap_Sequence" = some .keycapSequence := rfl
    have hset := StringSet.ofList_singleton StringProperty.keycapSequence.name keycap
    simp [data, SequenceData.table, Table.ofLists, NamedLists.tableInOrder, TableBuilder.insertAll,
      TableBuilder.insertNamed, TableBuilder.insert, TableBuilder.empty, TableBuilder.buildInOrder,
      TableBuilder.sets, TableBuilder.listed?, StringProperty.all, hname, hset, Except.map]
  obtain ⟨table, htable⟩ := htable
  obtain ⟨pattern, hcompile, hfinds⟩ :=
    (escape_finds_listed_sequences hfiles htable (fun _ => none) true).2.2
      ⟨"Emoji_Keycap_Sequence", rfl⟩ rfl
  refine ⟨data, table, pattern, hfiles, htable, hcompile, (hfinds.isFullMatch_iff _).mpr ?_⟩
  exact ⟨"Emoji_Keycap_Sequence", [keycap], rfl, keycap, List.mem_singleton_self _, rfl⟩

end Pattern

end EmojiPatterns
