import EmojiPatterns.Proofs.ByteOrder
import EmojiPatterns.Sequence

/-!
# Sequences and their code points

Sequences are compared by the bytes of their texts, and it comes to the same as comparing their
lists of code points: these give the order, tell which sequence is the start of a longer one, and
are what a sequence is made of and read back as.  Main statements: `Sequence.isStrictPrefixOf_iff`,
`Sequence.ofCodePoints_eq_ok_iff`, `Sequence.bytes_compare_as_code_points`.
-/

namespace EmojiPatterns

theorem map_toNat_lt_of_textLT {left right : List Char} (hlt : TextLT left right) :
    left.map Char.toNat < right.map Char.toNat := by
  unfold TextLT at hlt
  induction hlt with
  | nil => exact List.Lex.nil
  | rel hlower => exact List.Lex.rel hlower
  | cons _ ih => exact List.Lex.cons ih

/-- A text comes before those that go on behind it. -/
theorem textLT_append {rest : List Char} (hrest : rest ≠ []) (text : List Char) :
    TextLT text (text ++ rest) := by
  obtain ⟨c, more, rfl⟩ := List.exists_cons_of_ne_nil hrest
  have hlater := List.Lex.append_left (fun x y : Char => x.toNat < y.toNat)
    (List.Lex.nil (a := c) (l := more)) text
  rwa [List.append_nil] at hlater

/-- The bytes of a text are those of the string with its characters, and of no other. -/
theorem utf8Bytes_eq_toByteArray_iff {text : List Char} {string : String} :
    utf8Bytes text = string.toByteArray.data.toList ↔ string.toList = text := by
  have hstring : string.toByteArray.data.toList = utf8Bytes string.toList := by
    rw [← String.utf8Encode_toList, List.utf8Encode, List.data_toByteArray]
    rfl
  rw [hstring, utf8Bytes_inj]
  exact eq_comm

namespace Sequence

/-- The code points of the characters. -/
def codePoints (sequence : Sequence) : List Nat :=
  sequence.chars.map Char.toNat

variable {left right sequence : Sequence} {given : List Nat}

/-! ### Order and prefixes -/

theorem utf8Bytes_lt_iff : left.utf8Bytes < right.utf8Bytes ↔ left < right :=
  EmojiPatterns.utf8Bytes_lt_iff

theorem codePoints_lt_iff : left.codePoints < right.codePoints ↔ left < right :=
  lt_iff_textLT map_toNat_lt_of_textLT

theorem utf8Bytes_eq_iff : left.utf8Bytes = right.utf8Bytes ↔ left = right :=
  utf8Bytes_inj.trans Sequence.ext_iff.symm

theorem codePoints_inj : left.codePoints = right.codePoints ↔ left = right :=
  (eq_iff_of_textLT map_toNat_lt_of_textLT).trans Sequence.ext_iff.symm

/-- A strict prefix goes on as the other sequence, by at least one character. -/
theorem isStrictPrefixOf_iff_exists :
    left.isStrictPrefixOf right = true ↔ ∃ rest, rest ≠ [] ∧ right.chars = left.chars ++ rest := by
  rw [isStrictPrefixOf, Bool.and_eq_true, decide_eq_true_eq, List.isPrefixOf_iff_prefix, utf8Bytes,
    utf8Bytes, utf8Bytes_prefix_iff, utf8Length, utf8Length]
  constructor
  · rintro ⟨hlength, rest, hrest⟩
    refine ⟨rest, ?_, hrest.symm⟩
    rintro rfl
    rw [← hrest, List.append_nil] at hlength
    exact Nat.lt_irrefl _ hlength
  · rintro ⟨rest, hne, hrest⟩
    have hpos := Nat.pos_of_ne_zero (mt utf8Length_eq_zero_iff.mp hne)
    rw [hrest, utf8Length_append]
    exact ⟨Nat.lt_add_of_pos_right hpos, List.prefix_append _ _⟩

theorem isStrictPrefixOf_iff :
    left.isStrictPrefixOf right = true ↔
      left.codePoints <+: right.codePoints ∧ left.codePoints ≠ right.codePoints := by
  rw [isStrictPrefixOf_iff_exists, ne_eq, codePoints_inj, Sequence.ext_iff, codePoints, codePoints,
    List.prefix_map_iff_of_injective fun _ _ => Char.toNat_inj.mp]
  constructor
  · rintro ⟨rest, hne, hrest⟩
    refine ⟨⟨rest, hrest.symm⟩, ?_⟩
    intro heq
    exact hne (List.append_right_eq_self.mp (hrest.symm.trans heq.symm))
  · rintro ⟨⟨rest, hrest⟩, hne⟩
    refine ⟨rest, ?_, hrest.symm⟩
    rintro rfl
    exact hne (by rw [← hrest, List.append_nil])

/-- A strict prefix comes first and has fewer characters. -/
theorem lt_of_isStrictPrefixOf (hstarts : left.isStrictPrefixOf right = true) :
    left < right ∧ left.length < right.length := by
  obtain ⟨rest, hne, hrest⟩ := isStrictPrefixOf_iff_exists.mp hstarts
  change TextLT left.chars right.chars ∧ left.chars.length < right.chars.length
  rw [hrest, List.length_append]
  exact ⟨textLT_append hne left.chars, Nat.lt_add_of_pos_right (List.length_pos_iff.mpr hne)⟩

/-! ### Sequences made of code points -/

theorem scalars_eq_ok_iff {chars : List Char} :
    scalars given = .ok chars ↔ chars.map Char.toNat = given := by
  induction given generalizing chars with
  | nil => simp [scalars, eq_comm]
  | cons codePoint rest ih =>
    rw [scalars, List.map_eq_cons_iff]
    constructor
    · intro hscalars
      split at hscalars
      · cases hscalars
      · next c hscalar =>
        cases hrest : scalars rest with
        | error error =>
          rw [hrest] at hscalars
          cases hscalars
        | ok more =>
          rw [hrest] at hscalars
          cases hscalars
          exact ⟨c, more, rfl, Unicode.scalar?_eq_some_iff.mp hscalar, ih.mp hrest⟩
    · rintro ⟨c, more, rfl, rfl, hmore⟩
      rw [Unicode.scalar?_toNat, ih.mpr hmore]
      rfl

/-- A sequence is made of its own code points only, and these make it. -/
theorem ofCodePoints_eq_ok_iff :
    ofCodePoints given = .ok sequence ↔ sequence.codePoints = given := by
  rw [codePoints, ← scalars_eq_ok_iff, ofCodePoints]
  cases scalars given with
  | error error => exact iff_of_false nofun nofun
  | ok chars =>
    by_cases hempty : chars = []
    · simp [ofChars?, hempty, sequence.nonempty.symm]
    · simp [ofChars?, hempty, Sequence.ext_iff]

/-- Code points make a sequence if there are any and all of them are scalar values. -/
theorem exists_ofCodePoints_eq_ok_iff :
    (∃ sequence, ofCodePoints given = .ok sequence) ↔
      given ≠ [] ∧ ∀ codePoint ∈ given, codePoint.isValidChar := by
  simp only [ofCodePoints_eq_ok_iff]
  constructor
  · rintro ⟨sequence, rfl⟩
    refine ⟨mt List.map_eq_nil_iff.mp sequence.nonempty, ?_⟩
    exact List.forall_mem_map.mpr fun c _ => c.valid
  · rintro ⟨hne, hvalid⟩
    refine ⟨⟨given.map Char.ofNat, mt List.map_eq_nil_iff.mp hne⟩, ?_⟩
    rw [codePoints, List.map_map]
    exact (List.map_congr_left fun codePoint hmem =>
      Unicode.toNat_ofNat (hvalid codePoint hmem)).trans (List.map_id given)

/-- Sequences are ordered by the bytes of their texts as by their code points, and equal if these
are.  One is a strict prefix of another if its code points are, and then it comes first and is
shorter.  A sequence reads back as the code points that it was made of, and so does a string with
its bytes. -/
theorem bytes_compare_as_code_points :
    (∀ left right : Sequence,
      (left < right ↔ left.utf8Bytes < right.utf8Bytes) ∧
      (left.utf8Bytes < right.utf8Bytes ↔ left.codePoints < right.codePoints) ∧
      (left = right ↔ left.utf8Bytes = right.utf8Bytes) ∧
      (left.utf8Bytes = right.utf8Bytes ↔ left.codePoints = right.codePoints) ∧
      (left.isStrictPrefixOf right = true ↔
        left.codePoints <+: right.codePoints ∧ left.codePoints ≠ right.codePoints) ∧
      (left.isStrictPrefixOf right = true → left < right ∧ left.length < right.length)) ∧
    ∀ given : List Nat,
      ((∃ sequence, ofCodePoints given = .ok sequence) ↔
        given ≠ [] ∧ ∀ codePoint ∈ given, codePoint.isValidChar) ∧
      ∀ sequence, ofCodePoints given = .ok sequence →
        sequence.codePoints = given ∧
        ∀ string : String, string.toByteArray.data.toList = sequence.utf8Bytes ↔
          string.toList.map Char.toNat = given := by
  constructor
  · intro left right
    exact ⟨utf8Bytes_lt_iff.symm, utf8Bytes_lt_iff.trans codePoints_lt_iff.symm,
      utf8Bytes_eq_iff.symm, utf8Bytes_eq_iff.trans codePoints_inj.symm, isStrictPrefixOf_iff,
      lt_of_isStrictPrefixOf⟩
  · intro given
    refine ⟨exists_ofCodePoints_eq_ok_iff, ?_⟩
    intro sequence hsequence
    have hgiven := ofCodePoints_eq_ok_iff.mp hsequence
    refine ⟨hgiven, ?_⟩
    intro string
    rw [← hgiven, eq_comm, utf8Bytes, utf8Bytes_eq_toByteArray_iff, codePoints,
      List.map_inj_right fun _ _ => Char.toNat_inj.mp]

/-- The last character before the surrogates, alone and with one of four bytes behind it. -/
theorem bytes_compare_as_code_points_surrogates :
    ∃ low longer, ofCodePoints [0xD7FF] = .ok low ∧ ofCodePoints [0xD7FF, 0x10000] = .ok longer ∧
      low.codePoints = [0xD7FF] ∧ low < longer ∧ low.length < longer.length := by
  obtain ⟨low, hlow⟩ := (bytes_compare_as_code_points.2 [0xD7FF]).1.mpr (by decide)
  obtain ⟨longer, hlonger⟩ := (bytes_compare_as_code_points.2 [0xD7FF, 0x10000]).1.mpr (by decide)
  have hlowPoints := ((bytes_compare_as_code_points.2 _).2 low hlow).1
  have hlongerPoints := ((bytes_compare_as_code_points.2 _).2 longer hlonger).1
  obtain ⟨-, -, -, -, hstarts, hless⟩ := bytes_compare_as_code_points.1 low longer
  rw [hlowPoints, hlongerPoints] at hstarts
  exact ⟨low, longer, hlow, hlonger, hlowPoints, hless (hstarts.mpr (by decide))⟩

end Sequence

end EmojiPatterns
