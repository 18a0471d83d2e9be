import EmojiPatterns.Proofs.Composition
import EmojiPatterns.Proofs.QuotedCharacters
import EmojiPatterns.Proofs.WrittenData

/-!
# How code points are written

A code point stands in the escape of a pattern, in a field of a data file or at either end of a
range.  Wherever it stands it is a hexadecimal numeral, and in all places one plus sign may be in
front of the digits.  Everything else is refused, by a fault that tells the place in the pattern or
repeats the text.  Main statement: `code_points_are_signed_numerals`.
-/

namespace EmojiPatterns

/-- A text that is read as a code point, be it a scalar value or not. -/
def Numeral.IsCodePoint (text : List Char) (value : Nat) : Prop :=
  IsSignedHex text value ∧ value < 0x100000000

/-! ### In patterns -/

namespace Pattern

open Escape (ofDigits)

variable {resolver : Resolver} {digits : List Char}

theorem scalar?_of_digits_eq_some_iff {c : Char} :
    (Numeral.readCodePoint? digits).bind Unicode.scalar? = some c ↔
      Numeral.IsSignedHex digits c.toNat := by
  have hbound : c.toNat < 0x100000000 := c.val.toNat_lt
  simp only [Option.bind_eq_some_iff, Numeral.readCodePoint?_eq_some_iff,
    Unicode.scalar?_eq_some_iff, exists_eq_right', hbound, and_true]

theorem compile_ofDigits_of_isSignedHex (hbrace : '\x7d' ∉ digits) {c : Char}
    (hsigned : Numeral.IsSignedHex digits c.toNat) :
    compile resolver (ofDigits digits) = .ok ⟨ofDigits digits, .char c⟩ := by
  obtain ⟨value, hvalue, hscalar⟩ :=
    Option.bind_eq_some_iff.mp (scalar?_of_digits_eq_some_iff.mpr hsigned)
  have hatom : Derives resolver .atom ⟨ofDigits digits, false, .char c⟩ :=
    .escape (.codePoint hbrace hvalue hscalar)
  exact compile_of_derives hatom.alternation_of_atom rfl

/-- Where no character is read from the digits, the whole escape is reported. -/
theorem compile_ofDigits_of_not_isSignedHex (hbrace : '\x7d' ∉ digits)
    (hnone : ∀ c : Char, ¬ Numeral.IsSignedHex digits c.toNat) :
    compile resolver (ofDigits digits) =
      .error (.malformed ⟨.invalidCodePoint, ⟨0, utf8Length (ofDigits digits)⟩⟩) := by
  have hinvalid : (Numeral.readCodePoint? digits).bind Unicode.scalar? = none := by
    simp only [Option.eq_none_iff_forall_ne_some, ne_eq, scalar?_of_digits_eq_some_iff]
    exact hnone
  have hstart : (Cursor.start (ofDigits digits)).ahead = ofDigits digits := rfl
  obtain ⟨afterSlash, hslash, hahead⟩ := Cursor.exists_next?_eq_some hstart
  obtain ⟨afterLetter, hletter, hahead⟩ := Cursor.exists_next?_eq_some hahead
  obtain ⟨inside, hopen, hinside⟩ := Cursor.exists_next?_eq_some hahead
  obtain ⟨after, hafter⟩ := Cursor.exists_ahead_eq
    (show inside.ahead = (digits ++ ['\x7d']) ++ [] by rw [hinside, List.append_nil])
  have hclose : inside.until? '\x7d' = some (digits, after) :=
    Cursor.until?_eq_some_of_ahead_eq hbrace (by rw [hafter, hinside])
  have hlength : after.offset = utf8Length (ofDigits digits) := Cursor.atEnd_iff_offset.mp hafter
  have hread : Token.readFrom (Cursor.start (ofDigits digits)).offset '\\' afterSlash =
      .broken none ⟨.invalidCodePoint, ⟨0, utf8Length (ofDigits digits)⟩⟩ := by
    simp only [Token.readFrom, Escape.read, hletter, Escape.readChar, Escape.readCodePoint, hopen,
      hclose, hinvalid, hlength, Reading.map]
    rfl
  rw [compile_eq_error_iff, Node.ofText_eq_result, Stage.result_of_broken hslash hread]
  rfl

end Pattern

/-! ### In data files -/

/-- A field without blanks and without the signs that end a field or the content of a line. -/
structure PlainField (field : List Char) : Prop where
  visible : ∀ c ∈ field, Unicode.isWhiteSpace c = false
  unmarked : '#' ∉ field ∧ ';' ∉ field

theorem PlainField.range {first last : List Char} (hfirst : PlainField first)
    (hlast : PlainField last) : PlainField (first ++ '.' :: '.' :: last) where
  visible := by
    have hdot : Unicode.isWhiteSpace '.' = false := by decide
    simp only [List.forall_mem_append, List.forall_mem_cons]
    exact ⟨hfirst.visible, hdot, hdot, hlast.visible⟩
  unmarked := by simp [hfirst.unmarked, hlast.unmarked]

theorem trim_eq_of_visible {text : List Char}
    (hvisible : ∀ c ∈ text, Unicode.isWhiteSpace c = false) : trim text = text := by
  by_cases hnil : text = []
  · subst hnil
    rfl
  · exact (trimmed_of_visible hnil hvisible).trim_eq

namespace FieldReading

variable {first last word : List Char} {lo hi value : Nat}

/-- Nothing is read from a field, for a text in it stands for no code point. -/
def refused (text : List Char) : FieldReading :=
  ⟨[], some (.inl (.codePoint (String.ofList text)))⟩

theorem codePoint_of_isCodePoint (hvalue : Numeral.IsCodePoint word value) :
    codePoint word = .ok value :=
  codePoint_eq_ok_iff.mpr (Numeral.readCodePoint?_eq_some_iff.mpr hvalue)

theorem codePoint_of_not_isCodePoint (hnone : ∀ value, ¬ Numeral.IsCodePoint word value) :
    codePoint word = .error (.codePoint (String.ofList word)) := by
  have hinvalid : Numeral.readCodePoint? word = none := by
    simp only [Option.eq_none_iff_forall_ne_some, ne_eq, Numeral.readCodePoint?_eq_some_iff]
    exact hnone
  rw [codePoint, hinvalid]

/-! #### One code point -/

section

variable (hword : PlainField word) (hdot : '.' ∉ word)

include hword

theorem wordsOf_eq_singleton (hne : word ≠ []) : wordsOf word = [word] := by
  have hone := wordsOf_intercalate (List.forall_mem_singleton.mpr ⟨hne, hword.visible⟩)
  rwa [List.intercalate_singleton] at hone

include hdot

theorem ofField_of_isCodePoint (hvalue : Numeral.IsCodePoint word value) :
    ofField word = expand [value] := by
  rw [ofField, splitAtDots?_of_not_mem hdot, wordsOf_eq_singleton hword hvalue.1.ne_nil]
  cases hone : Sequence.ofCodePoints [value] with
  | error error =>
    simp only [codePoints, codePoint_of_isCodePoint hvalue, Except.map, expand, hone]
  | ok sequence =>
    simp only [codePoints, codePoint_of_isCodePoint hvalue, Except.map, expand, hone]

theorem ofField_of_not_isCodePoint (hne : word ≠ [])
    (hnone : ∀ value, ¬ Numeral.IsCodePoint word value) : ofField word = refused word := by
  rw [ofField, splitAtDots?_of_not_mem hdot, wordsOf_eq_singleton hword hne]
  simp only [codePoints, codePoint_of_not_isCodePoint hnone, refused]

end

/-! #### Ranges -/

section

variable (hfirst : PlainField first) (hlast : PlainField last) (hdot : '.' ∉ first)

include hfirst hdot

theorem ofField_range_of_not_first (hnone : ∀ lo, ¬ Numeral.IsCodePoint first lo) :
    ofField (first ++ '.' :: '.' :: last) = refused first := by
  rw [ofField, splitAtDots?_append hdot]
  simp only [trim_eq_of_visible hfirst.visible, codePoint_of_not_isCodePoint hnone, refused]

include hlast

theorem ofField_range_of_isCodePoint (hlo : Numeral.IsCodePoint first lo)
    (hhi : Numeral.IsCodePoint last hi) :
    ofField (first ++ '.' :: '.' :: last) =
      if hi < lo then ⟨[], some (.inl (.range lo hi))⟩
      else expand (List.range' lo (hi + 1 - lo)) := by
  rw [ofField, splitAtDots?_append hdot]
  simp only [trim_eq_of_visible hfirst.visible, trim_eq_of_visible hlast.visible,
    codePoint_of_isCodePoint hlo, codePoint_of_isCodePoint hhi, range_eq_expand]

theorem ofField_range_of_not_last (hlo : Numeral.IsCodePoint first lo)
    (hnone : ∀ hi, ¬ Numeral.IsCodePoint last hi) :
    ofField (first ++ '.' :: '.' :: last) = refused last := by
  rw [ofField, splitAtDots?_append hdot]
  simp only [trim_eq_of_visible hfirst.visible, trim_eq_of_visible hlast.visible,
    codePoint_of_isCodePoint hlo, codePoint_of_not_isCodePoint hnone, refused]

end

end FieldReading

/-- Adds what was read from the field of a line to the list of a name. -/
def SequenceData.addReading (data : SequenceData) (number : Nat) (name : String)
    (reading : FieldReading) : SequenceData × Option DataError :=
  ({ data with lists := data.lists.append name reading.sequences },
    reading.failure.map (FieldReading.errorAt number))

/-- Wherever the line with a field and a name stands, it adds a reading to the list of the name. -/
def DataLine.Adds (name : String) (field : List Char) (reading : FieldReading) : Prop :=
  ∀ (data : SequenceData) (number : Nat),
    data.addLine number (ofField name field) = data.addReading number name reading

theorem DataLine.adds_ofField {name : String} {field : List Char} (hname : PlainName name)
    (hfield : PlainField field) : Adds name field (.ofField field) := by
  intro data number
  rw [SequenceData.addLine, read_ofField hname hfield.unmarked.1 hfield.unmarked.2,
    trim_eq_of_visible hfield.visible]
  exact Prod.ext rfl (data.snd_addEntry number name field)

/-- In the escape of a pattern, on a line of a data file and at the ends of a range, code points are
read from hexadecimal numerals with at most one plus sign in front, and anything else that stands
there is a fault. -/
theorem code_points_are_signed_numerals (resolver : Resolver) :
    (∀ digits, '\x7d' ∉ digits →
      (∀ c : Char, Numeral.IsSignedHex digits c.toNat →
        Pattern.compile resolver (Escape.ofDigits digits) =
          .ok ⟨Escape.ofDigits digits, .char c⟩) ∧
      ((∀ c : Char, ¬ Numeral.IsSignedHex digits c.toNat) →
        Pattern.compile resolver (Escape.ofDigits digits) =
          .error (.malformed ⟨.invalidCodePoint, ⟨0, utf8Length (Escape.ofDigits digits)⟩⟩))) ∧
    ∀ name, PlainName name →
      (∀ word, PlainField word → '.' ∉ word →
        (∀ value, Numeral.IsCodePoint word value → DataLine.Adds name word (.expand [value])) ∧
        (word ≠ [] → (∀ value, ¬ Numeral.IsCodePoint word value) →
          DataLine.Adds name word (.refused word)) ∧
        (word = [] → DataLine.Adds name word ⟨[], some (.inr .empty)⟩)) ∧
      ∀ first last, PlainField first → PlainField last → '.' ∉ first →
        (∀ lo hi, Numeral.IsCodePoint first lo → Numeral.IsCodePoint last hi →
          DataLine.Adds name (first ++ '.' :: '.' :: last)
            (if hi < lo then ⟨[], some (.inl (.range lo hi))⟩
              else .expand (List.range' lo (hi + 1 - lo)))) ∧
        ((∀ lo, ¬ Numeral.IsCodePoint first lo) →
          DataLine.Adds name (first ++ '.' :: '.' :: last) (.refused first)) ∧
        (∀ lo, Numeral.IsCodePoint first lo → (∀ hi, ¬ Numeral.IsCodePoint last hi) →
          DataLine.Adds name (first ++ '.' :: '.' :: last) (.refused last)) := by
  refine ⟨fun digits hbrace => ⟨fun c => Pattern.compile_ofDigits_of_isSignedHex hbrace,
    Pattern.compile_ofDigits_of_not_isSignedHex hbrace⟩, ?_⟩
  intro name hname
  constructor
  · intro word hword hdot
    have hadds := DataLine.adds_ofField hname hword
    refine ⟨?_, ?_, ?_⟩
    · intro value hvalue
      rwa [FieldReading.ofField_of_isCodePoint hword hdot hvalue] at hadds
    · intro hne hnone
      rwa [FieldReading.ofField_of_not_isCodePoint hword hdot hne hnone] at hadds
    · rintro rfl
      exact hadds
  · intro first last hfirst hlast hdot
    have hadds := DataLine.adds_ofField hname (hfirst.range hlast)
    refine ⟨?_, ?_, ?_⟩
    · intro lo hi hlo hhi
      rwa [FieldReading.ofField_range_of_isCodePoint hfirst hlast hdot hlo hhi] at hadds
    · intro hnone
      rwa [FieldReading.ofField_range_of_not_first hfirst hdot hnone] at hadds
    · intro lo hlo hnone
      rwa [FieldReading.ofField_range_of_not_last hfirst hlast hdot hlo hnone] at hadds

theorem code_points_are_signed_numerals_watch :
    Pattern.compile .nameless (Escape.ofDigits ['2', '3', '1', 'a']) =
        .ok ⟨Escape.ofDigits ['2', '3', '1', 'a'], .char '\u231A'⟩ ∧
      DataLine.Adds "Emoji" ['0', '4', '1'] (.expand [0x41]) := by
  have hhex : Numeral.IsHex ['2', '3', '1', 'a'] '\u231A'.toNat := by decide
  have hvalue : Numeral.IsCodePoint ['0', '4', '1'] 0x41 :=
    ⟨.bare (by decide), by decide⟩
  have hname : PlainName "Emoji" := by
    refine ⟨trimmed_of_visible (by decide) ?_, by decide⟩
    change ∀ c ∈ ['E', 'm', 'o', 'j', 'i'], Unicode.isWhiteSpace c = false
    simp only [List.forall_mem_cons]
    exact ⟨by decide, by decide, by decide, by decide, by decide, nofun⟩
  have hword : PlainField ['0', '4', '1'] := by
    refine ⟨?_, by decide⟩
    simp only [List.forall_mem_cons]
    exact ⟨by decide, by decide, by decide, nofun⟩
  obtain ⟨hescape, hline⟩ := code_points_are_signed_numerals .nameless
  exact ⟨(hescape _ (by decide)).1 _ (.bare hhex),
    ((hline _ hname).1 _ hword (by decide)).1 _ hvalue⟩

/-- A plus sign is no hexadecimal digit, but in front of digits it is read over. -/
theorem plus_sign_is_read_over :
    (∀ value, ¬ Numeral.IsHex ['+', '4', '1'] value) ∧
      Pattern.compile .nameless (Escape.ofDigits ['+', '4', '1']) =
        .ok ⟨Escape.ofDigits ['+', '4', '1'], .char 'A'⟩ ∧
      SequenceData.empty.addLine 1 (DataLine.ofField "Basic_Emoji" ['+', '4', '1']) =
        (⟨none, ⟨[("Basic_Emoji", [.singleton 'A'])], List.pairwise_singleton _ _⟩⟩, none) := by
  have hhex : Numeral.IsHex ['4', '1'] 'A'.toNat := by decide
  refine ⟨?_, Pattern.compile_ofDigits_of_isSignedHex (by decide) (.plus hhex), by decide +kernel⟩
  intro value hplus
  exact absurd (hplus.digits '+' List.mem_cons_self) (by decide)

end EmojiPatterns
