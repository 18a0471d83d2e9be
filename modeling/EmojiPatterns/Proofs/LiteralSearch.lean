import EmojiPatterns.Proofs.Boundaries
import EmojiPatterns.Proofs.ByteOrder
import EmojiPatterns.Proofs.Composition
import EmojiPatterns.Proofs.MemberSearch
import EmojiPatterns.Proofs.QuotedCharacters
import EmojiPatterns.Proofs.Splicing

/-!
# Searching for quoted texts

A pattern made of quoted characters matches the text that they spell and nothing else, whatever the
characters are.  It is matched character by character, but that comes to comparing bytes: the first
byte of a character is never found inside of another character, so the bytes of a text that is not
empty occur only where the text stands.  Main statements: `standsAt_iff_occursAt`,
`Pattern.quoted_texts_search_literally`.
-/

namespace EmojiPatterns

variable {word text : List Char}

/-! ### Occurrences of bytes -/

/-- Whether bytes occur among others at an offset. -/
def OccursAt (part bytes : List UInt8) (offset : Nat) : Prop :=
  ∃ before after, bytes = before ++ part ++ after ∧ before.length = offset

theorem utf8Bytes_append (left right : List Char) :
    utf8Bytes (left ++ right) = utf8Bytes left ++ utf8Bytes right :=
  List.flatMap_append

/-- Inside of a character no character begins. -/
theorem not_isUTF8FirstByte {c : Char} {front back : List UInt8} {byte : UInt8}
    (hchar : String.utf8EncodeChar c = front ++ byte :: back) (hfront : front ≠ []) :
    ¬ byte.IsUTF8FirstByte := by
  have hlt : front.length < (String.utf8EncodeChar c).length := by simp [hchar]
  have hbyte : (String.utf8EncodeChar c)[front.length] = byte := by simp [hchar]
  rw [← hbyte, UInt8.isUTF8FirstByte_getElem_utf8EncodeChar, List.length_eq_zero_iff]
  exact hfront

theorem exists_utf8Bytes_eq_cons (hword : word ≠ []) :
    ∃ byte bytes, utf8Bytes word = byte :: bytes ∧ byte.IsUTF8FirstByte := by
  obtain ⟨x, rest, rfl⟩ := List.exists_cons_of_ne_nil hword
  obtain ⟨byte, bytes, hchar⟩ := List.exists_cons_of_ne_nil (String.utf8EncodeChar_ne_nil (c := x))
  refine ⟨byte, bytes ++ utf8Bytes rest, ?_, ?_⟩
  · rw [utf8Bytes, List.flatMap_cons, hchar]
    rfl
  · have hfirst := UInt8.isUTF8FirstByte_getElem_zero_utf8EncodeChar (c := x)
    simpa [hchar] using hfirst

/-- Where the bytes of a word occur, the word stands. -/
theorem exists_append_of_utf8Bytes_eq {front back : List UInt8} (hword : word ≠ [])
    (hbytes : utf8Bytes text = front ++ (utf8Bytes word ++ back)) :
    ∃ before after, text = before ++ word ++ after ∧ utf8Bytes before = front := by
  obtain ⟨byte, bytes, hfirst, hbyte⟩ := exists_utf8Bytes_eq_cons hword
  induction text generalizing front with
  | nil =>
    rw [hfirst] at hbytes
    simp [utf8Bytes] at hbytes
  | cons y rest ih =>
    have hbehind : ∀ more, front = String.utf8EncodeChar y ++ more →
        utf8Bytes rest = more ++ (utf8Bytes word ++ back) →
        ∃ before after, y :: rest = before ++ word ++ after ∧ utf8Bytes before = front := by
      rintro more rfl hrest
      obtain ⟨before, after, rfl, rfl⟩ := ih hrest
      exact ⟨y :: before, after, rfl, rfl⟩
    have hsplit : String.utf8EncodeChar y ++ utf8Bytes rest =
        front ++ (utf8Bytes word ++ back) := hbytes
    rcases List.append_eq_append_iff.mp hsplit with ⟨more, hfront, hrest⟩ | ⟨inside, hchar, hrest⟩
    · exact hbehind more hfront hrest
    · cases inside with
      | nil =>
        rw [List.append_nil] at hchar
        exact hbehind [] (by simp [hchar]) (by simpa using hrest.symm)
      | cons first others =>
        -- A word that begins inside of the character begins at its start.
        have hsame : byte = first := by
          simp only [hfirst, List.cons_append, List.cons.injEq] at hrest
          exact hrest.1
        have hnil : front = [] := by
          by_contra hfront
          exact not_isUTF8FirstByte hchar hfront (hsame ▸ hbyte)
        subst hnil
        obtain ⟨after, hafter⟩ := utf8Bytes_prefix_iff.mp ⟨back, hbytes.symm⟩
        exact ⟨[], after, hafter.symm, rfl⟩

/-- A word that is not empty stands where its bytes occur. -/
theorem standsAt_iff_occursAt (hword : word ≠ []) {offset : Nat} :
    StandsAt word text offset ↔ OccursAt (utf8Bytes word) (utf8Bytes text) offset := by
  constructor
  · rintro ⟨before, after, rfl, rfl⟩
    exact ⟨utf8Bytes before, utf8Bytes after, by simp only [utf8Bytes_append],
      length_utf8Bytes before⟩
  · rintro ⟨front, back, hbytes, rfl⟩
    rw [List.append_assoc] at hbytes
    obtain ⟨before, after, htext, rfl⟩ := exists_append_of_utf8Bytes_eq hword hbytes
    exact ⟨before, after, htext, (length_utf8Bytes before).symm⟩

theorem least_iff_eq_zero {p : Nat → Prop} (hzero : p 0) {n : Nat} :
    (p n ∧ ∀ m < n, ¬ p m) ↔ n = 0 := by
  constructor
  · rintro ⟨-, hleast⟩
    by_contra hne
    exact hleast 0 (Nat.pos_of_ne_zero hne) hzero
  · rintro rfl
    exact ⟨hzero, by simp⟩

/-- A word stands first where its bytes occur first.  The empty word is no exception, as both come
at the start. -/
theorem first_standsAt_iff {start : Nat} :
    (StandsAt word text start ∧ ∀ earlier < start, ¬ StandsAt word text earlier) ↔
      OccursAt (utf8Bytes word) (utf8Bytes text) start ∧
        ∀ earlier < start, ¬ OccursAt (utf8Bytes word) (utf8Bytes text) earlier := by
  by_cases hword : word = []
  · subst hword
    have hstands : StandsAt [] text 0 := ⟨[], text, rfl, rfl⟩
    have hoccurs : OccursAt (utf8Bytes []) (utf8Bytes text) 0 := ⟨[], utf8Bytes text, rfl, rfl⟩
    rw [least_iff_eq_zero hstands, least_iff_eq_zero hoccurs]
  · simp only [standsAt_iff_occursAt hword]

theorem exists_standsAt_iff :
    (∃ offset, StandsAt word text offset) ↔
      ∃ offset, OccursAt (utf8Bytes word) (utf8Bytes text) offset := by
  by_cases hword : word = []
  · subst hword
    exact iff_of_true ⟨0, [], text, rfl, rfl⟩ ⟨0, [], utf8Bytes text, rfl, rfl⟩
  · simp only [standsAt_iff_occursAt hword]

/-! ### Patterns that spell a word -/

/-- A text that spells a word with quoted characters. -/
inductive QuotesAll : List Char → List Char → Prop where
  | nil : QuotesAll [] []
  | cons {source rest word : List Char} {c : Char} (hquotes : Escape.Quotes source c)
      (hrest : QuotesAll rest word) : QuotesAll (source ++ rest) (c :: word)

theorem QuotesAll.exists_atoms {resolver : Resolver} {source : List Char}
    (hquotes : QuotesAll source word) :
    ∃ atoms : List Phrase, (∀ atom ∈ atoms, Derives resolver .atom atom) ∧
      atoms.flatMap (·.text) = source ∧ atoms.map (·.node) = word.map Node.char := by
  induction hquotes with
  | nil => exact ⟨[], nofun, rfl, rfl⟩
  | @cons source rest word c hquotes hrest ih =>
    obtain ⟨atoms, hatoms, htext, hnodes⟩ := ih
    refine ⟨⟨source, false, .char c⟩ :: atoms, ?_, ?_, ?_⟩
    · exact List.forall_mem_cons.mpr ⟨Derives.atom_of_quotes hquotes, hatoms⟩
    · rw [List.flatMap_cons, htext]
    · rw [List.map_cons, hnodes, List.map_cons]

namespace Node

/-- A word goes behind itself where it lies ahead, and nowhere else. -/
theorem mem_ends_word_iff {c d : Cursor text} :
    d ∈ (Node.word word).ends c ↔ c.ahead = word ++ d.ahead := by
  rw [ends_word, Option.mem_toList, Cursor.advance?_eq_some_iff]

theorem head?_ends_word_eq_some_iff {c d : Cursor text} :
    ((Node.word word).ends c).head? = some d ↔ c.ahead = word ++ d.ahead := by
  rw [ends_word, Option.head?_toList, Cursor.advance?_eq_some_iff]

theorem ends_word_eq_nil_iff {c : Cursor text} :
    (Node.word word).ends c = [] ↔ ¬ StandsAt word text c.offset := by
  rw [← List.head?_eq_none_iff, Option.eq_none_iff_forall_ne_some, standsAt_offset_iff, not_exists]
  simp only [ne_eq, head?_ends_word_eq_some_iff]

end Node

namespace Pattern

variable {resolver : Resolver} {source : List Char}

theorem compile_of_quotesAll (hquotes : QuotesAll source word) :
    compile resolver source = .ok ⟨source, .word word⟩ := by
  obtain ⟨atoms, hatoms, htext, hnodes⟩ := hquotes.exists_atoms
  rw [compile_of_derives (Derives.alternation_of_atoms hatoms) htext, hnodes]
  rfl

theorem matchAt_word_eq {before after : List Char} {offset : Nat}
    (hcut : cut? text offset = some (before, after)) :
    matchAt ⟨source, .word word⟩ text offset =
      if utf8Bytes word <+: utf8Bytes after then some (offset + utf8Length word) else none := by
  obtain ⟨htext, hoffset⟩ := cut?_eq_some_iff.mp hcut
  let c : Cursor text := ⟨offset, after, before, htext, hoffset⟩
  rw [show offset = c.offset from rfl, matchAt_offset]
  simp only [utf8Bytes_prefix_iff]
  split
  · next hstarts =>
    obtain ⟨rest, hrest⟩ := hstarts
    obtain ⟨d, rfl⟩ := Cursor.exists_ahead_eq (c := c) hrest.symm
    rw [Node.head?_ends_word_eq_some_iff.mpr hrest.symm, Option.map_some,
      Cursor.offset_eq_of_ahead_eq (c := c) hrest.symm]
  · next hstarts =>
    rw [Option.map_eq_none_iff, List.head?_eq_none_iff, Node.ends_word_eq_nil_iff,
      standsAt_offset_iff]
    rintro ⟨d, hahead⟩
    exact hstarts ⟨d.ahead, hahead.symm⟩

theorem find_word_eq_some_iff {start stop : Nat} :
    find ⟨source, .word word⟩ text = some ⟨start, stop⟩ ↔
      (StandsAt word text start ∧ ∀ earlier < start, ¬ StandsAt word text earlier) ∧
        stop = start + utf8Length word := by
  simp only [find_eq_some_iff, Node.head?_ends_word_eq_some_iff, Node.ends_word_eq_nil_iff]
  constructor
  · rintro ⟨c, d, hahead, hbefore, hspan⟩
    obtain ⟨rfl, rfl⟩ := Span.mk.inj hspan
    refine ⟨⟨standsAt_offset_iff.mpr ⟨d, hahead⟩, ?_⟩, Cursor.offset_eq_of_ahead_eq hahead⟩
    intro earlier hlt hstands
    obtain ⟨e, -, rfl, -⟩ := standsAt_iff.mp hstands
    exact hbefore e hlt hstands
  · rintro ⟨⟨hstands, hbefore⟩, rfl⟩
    obtain ⟨c, d, rfl, hahead⟩ := standsAt_iff.mp hstands
    refine ⟨c, d, hahead, fun e hlt => hbefore e.offset hlt, ?_⟩
    rw [Cursor.offset_eq_of_ahead_eq hahead]

theorem find_word_eq_none_iff :
    find ⟨source, .word word⟩ text = none ↔ ¬ ∃ offset, StandsAt word text offset := by
  simp only [find_eq_none_iff, Node.ends_word_eq_nil_iff, not_exists]
  constructor
  · intro hnone offset hstands
    obtain ⟨c, -, rfl, -⟩ := standsAt_iff.mp hstands
    exact hnone c hstands
  · intro hnone c
    exact hnone c.offset

theorem isFullMatch_word_iff :
    isFullMatch ⟨source, .word word⟩ text = true ↔ text = word := by
  simp only [isFullMatch_iff, Node.mem_ends_word_iff]
  constructor
  · rintro ⟨d, hahead, hend⟩
    rw [show d.ahead = [] from Cursor.atEnd_iff_offset.mpr hend, List.append_nil] at hahead
    exact hahead
  · rintro rfl
    obtain ⟨d, hend⟩ := Cursor.exists_ahead_eq (c := Cursor.start text) (List.append_nil text).symm
    refine ⟨d, ?_, Cursor.atEnd_iff_offset.mp hend⟩
    rw [hend, List.append_nil]
    rfl

/-- A source that spells a word with quoted characters compiles, whatever names are known, and
searches for the word: a match at an offset compares bytes, a search finds the first place where the
bytes of the word occur, and the only text that matches as a whole is the word. -/
theorem quoted_texts_search_literally (resolver : Resolver) {source word : List Char}
    (hquotes : QuotesAll source word) :
    ∃ pattern, compile resolver source = .ok pattern ∧ ∀ text : List Char,
      (∀ offset before after, cut? text offset = some (before, after) →
        pattern.matchAt text offset =
          if utf8Bytes word <+: utf8Bytes after then some (offset + utf8Length word) else none) ∧
      (∀ offset, cut? text offset = none → pattern.matchAt text offset = none) ∧
      (∀ start stop, pattern.find text = some ⟨start, stop⟩ ↔
        (OccursAt (utf8Bytes word) (utf8Bytes text) start ∧
          ∀ earlier < start, ¬ OccursAt (utf8Bytes word) (utf8Bytes text) earlier) ∧
        stop = start + utf8Length word) ∧
      (pattern.find text = none ↔
        ¬ ∃ offset, OccursAt (utf8Bytes word) (utf8Bytes text) offset) ∧
      (pattern.isFullMatch text = true ↔ text = word) := by
  refine ⟨_, compile_of_quotesAll hquotes, ?_⟩
  intro text
  refine ⟨fun _ _ _ => matchAt_word_eq, fun _ => matchAt_eq_none_of_cut?, ?_, ?_,
    isFullMatch_word_iff⟩
  · intro start stop
    rw [find_word_eq_some_iff, first_standsAt_iff]
  · rw [find_word_eq_none_iff, exists_standsAt_iff]

theorem quoted_texts_search_literally_accent :
    ∃ pattern, compile .nameless ['a', '\\', '.', '\\', 'u', '\x7b', '0', 'E', '9', '\x7d'] =
        .ok pattern ∧
      pattern.matchAt ['é', 'a', '.', 'é'] 2 = some 6 ∧
      pattern.find ['a', '.', 'é', '!'] = some ⟨0, 4⟩ ∧
      pattern.isFullMatch ['a', '.', 'é'] = true := by
  have hhex : Numeral.IsHex ['0', 'E', '9'] 'é'.toNat := by decide
  have hquotes : QuotesAll ['a', '\\', '.', '\\', 'u', '\x7b', '0', 'E', '9', '\x7d']
      ['a', '.', 'é'] :=
    .cons (.quote 'a') (.cons (.quote '.') (.cons (.codePoint hhex) .nil))
  obtain ⟨pattern, hcompile, hsearch⟩ := quoted_texts_search_literally .nameless hquotes
  refine ⟨pattern, hcompile, ?_, ?_, ?_⟩
  · rw [(hsearch _).1 2 ['é'] ['a', '.', 'é'] rfl]
    rfl
  · exact ((hsearch _).2.2.1 0 4).mpr ⟨⟨⟨[], utf8Bytes ['!'], rfl, rfl⟩, nofun⟩, rfl⟩
  · exact (hsearch _).2.2.2.2.mpr rfl

end Pattern

end EmojiPatterns
