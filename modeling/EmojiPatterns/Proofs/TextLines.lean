import EmojiPatterns.Text.Line
import Mathlib.Data.List.Basic
import Mathlib.Data.List.Induction
import Mathlib.Data.List.TakeWhile

/-!
# Texts made of lines

Where a text is cut at the end of a line, its lines are those of the one part and then those of the
other.  Lines that are joined or closed by line feeds are read back, up to a carriage return before
a line feed and an empty line at the end, and words with a blank between them are read back as well.
White space at the end of a line is lost on all that is trimmed.  Main statements:
`linesOf_append`, `linesOf_joined`, `linesOf_closed`, `linesOf_trimmed`, `wordsOf_intercalate`,
`splitAtDots?_eq_some_iff`.
-/

namespace EmojiPatterns

/-! ### Cutting at line feeds -/

/-- A text whose last line, if it has one, is closed by a line feed. -/
def Closed (text : List Char) : Prop :=
  text = [] ∨ text.getLast? = some '\n'

instance (text : List Char) : Decidable (Closed text) :=
  inferInstanceAs (Decidable (_ ∨ _))

theorem linesOf_nil : linesOf [] = [] := rfl

/-- Up to a line feed the lines are what stands between line feeds. -/
theorem linesOf_append_cons (front back : List Char) :
    linesOf (front ++ '\n' :: back) = (front.splitOn '\n').map dropReturn ++ linesOf back := by
  have hback : back.splitOn '\n' ≠ [] := List.splitOn_ne_nil '\n' back
  simp only [linesOf, List.splitOn_append_cons_self, List.dropLast_append_of_ne_nil hback,
    List.getLast?_append_of_ne_nil _ hback, List.map_append, List.append_assoc]

/-- Behind a closed line the lines are counted anew. -/
theorem linesOf_append {front : List Char} (hclosed : Closed front) (back : List Char) :
    linesOf (front ++ back) = linesOf front ++ linesOf back := by
  rcases hclosed with rfl | hlast
  · rfl
  · obtain ⟨init, rfl⟩ := List.getLast?_eq_some_iff.mp hlast
    rw [List.append_assoc, List.singleton_append, linesOf_append_cons, linesOf_append_cons,
      linesOf_nil, List.append_nil]

/-- Lines with a line feed between each two of them. -/
def joinLines (lines : List (List Char)) : List Char :=
  ['\n'].intercalate lines

/-- Lines with a line feed behind each of them. -/
def closeLines (lines : List (List Char)) : List Char :=
  lines.flatMap fun line => line ++ ['\n']

/-- Joined lines are read back but for the carriage return before a line feed, and for the last
line if it is empty. -/
theorem linesOf_joined {lines : List (List Char)} (hlines : ∀ line ∈ lines, '\n' ∉ line) :
    linesOf (joinLines lines) =
      lines.dropLast.map dropReturn ++ lines.getLast?.toList.filter (· ≠ []) := by
  by_cases hnil : lines = []
  · subst hnil
    rfl
  · rw [linesOf, joinLines, List.splitOn_intercalate '\n' hlines hnil]

/-- Closed lines are read back but for the carriage return before a line feed. -/
theorem linesOf_closed {lines : List (List Char)} (hlines : ∀ line ∈ lines, '\n' ∉ line) :
    linesOf (closeLines lines) = lines.map dropReturn := by
  induction lines with
  | nil => rfl
  | cons line rest ih =>
    obtain ⟨hline, hrest⟩ := List.forall_mem_cons.mp hlines
    have hcut : closeLines (line :: rest) = line ++ '\n' :: closeLines rest := by
      simp [closeLines]
    rw [hcut, linesOf_append_cons, List.splitOn_eq_singleton hline, ih hrest]
    rfl

/-- If `f` sees neither a carriage return at the end of a line nor an empty line, it finds in the
lines of a text what it finds in those that were joined. -/
theorem flatMap_linesOf_joined {β : Type} {f : List Char → List β} {lines : List (List Char)}
    (hreturn : ∀ line, f (dropReturn line) = f line) (hnil : f [] = [])
    (hlines : ∀ line ∈ lines, '\n' ∉ line) :
    (linesOf (joinLines lines)).flatMap f = lines.flatMap f := by
  rw [linesOf_joined hlines, List.flatMap_append, List.flatMap_map]
  simp only [hreturn]
  cases lines using List.reverseRecOn with
  | nil => rfl
  | append_singleton init last =>
    rw [List.dropLast_concat, List.getLast?_concat, List.flatMap_append]
    by_cases hlast : last = []
    · simp [hlast, hnil]
    · simp [hlast]

/-! ### White space -/

/-- Only white space is trimmed away as a whole. -/
theorem trim_eq_nil_iff {text : List Char} :
    trim text = [] ↔ ∀ c ∈ text, Unicode.isWhiteSpace c = true := by
  have hend : ∀ text, trimEnd text = [] ↔ ∀ c ∈ text, Unicode.isWhiteSpace c = true := by
    intro text
    rw [trimEnd, List.reverse_eq_nil_iff, List.dropWhile_eq_nil_iff]
    simp
  have hparts : text.takeWhile Unicode.isWhiteSpace ++ trimStart text = text :=
    List.takeWhile_append_dropWhile
  rw [trim, hend]
  constructor
  · intro hrest
    rw [← hparts, List.forall_mem_append]
    exact ⟨fun c hmem => List.mem_takeWhile_imp hmem, hrest⟩
  · intro hall c hmem
    exact hall c (hparts ▸ List.mem_append_right _ hmem)

section

variable {c : Char} (hwhite : Unicode.isWhiteSpace c = true)

include hwhite

theorem trimEnd_concat (text : List Char) : trimEnd (text ++ [c]) = trimEnd text := by
  simp [trimEnd, hwhite]

/-- A text of white space stays one, and otherwise nothing changes at the start. -/
theorem trimStart_concat (text : List Char) :
    (trimStart text = [] ∧ trimStart (text ++ [c]) = []) ∨
      trimStart (text ++ [c]) = trimStart text ++ [c] := by
  rw [trimStart, trimStart, List.dropWhile_append]
  by_cases hblank : (text.dropWhile Unicode.isWhiteSpace).isEmpty = true
  · refine .inl ⟨List.isEmpty_iff.mp hblank, ?_⟩
    rw [if_pos hblank]
    simp [hwhite]
  · exact .inr (if_neg hblank)

theorem trim_concat (text : List Char) : trim (text ++ [c]) = trim text := by
  rcases trimStart_concat hwhite text with ⟨hnil, hconcat⟩ | hconcat
  · rw [trim, trim, hconcat, hnil]
  · rw [trim, trim, hconcat, trimEnd_concat hwhite]

end

theorem dropPrefix?_concat {word : List Char} {c : Char} (hword : c ∉ word) (text : List Char) :
    dropPrefix? word (text ++ [c]) = (dropPrefix? word text).map (· ++ [c]) := by
  fun_induction dropPrefix? word text with
  | case1 text => rfl
  | case2 x word =>
    obtain ⟨hne, -⟩ : c ≠ x ∧ c ∉ word := by simpa using hword
    simp [dropPrefix?, Ne.symm hne]
  | case3 word y text ih =>
    obtain ⟨-, hrest⟩ : c ≠ y ∧ c ∉ word := by simpa using hword
    simpa [dropPrefix?] using ih hrest
  | case4 x word y text hne => simp [dropPrefix?, hne]

/-- A character behind a text is a character behind the last of its pieces. -/
theorem exists_splitOn_concat {a c : Char} (hne : c ≠ a) (text : List Char) :
    ∃ front last, text.splitOn a = front ++ [last] ∧
      (text ++ [c]).splitOn a = front ++ [last ++ [c]] := by
  induction text with
  | nil =>
    refine ⟨[], [], rfl, ?_⟩
    exact List.splitOn_eq_singleton (by simpa using Ne.symm hne)
  | cons x rest ih =>
    obtain ⟨front, last, hrest, hconcat⟩ := ih
    rw [List.cons_append, List.splitOn_cons_eq_if_modifyHead, List.splitOn_cons_eq_if_modifyHead,
      hrest, hconcat]
    by_cases hx : x = a
    · exact ⟨[] :: front, last, by simp [hx], by simp [hx]⟩
    · cases front with
      | nil => exact ⟨[], x :: last, by simp [hx], by simp [hx]⟩
      | cons piece front => exact ⟨(x :: piece) :: front, last, by simp [hx], by simp [hx]⟩

/-! ### Trimmed texts -/

/-- A text that is not empty and has no white space at its ends. -/
structure Trimmed (text : List Char) : Prop where
  nonempty : text ≠ []
  first : ∀ c ∈ text.head?, Unicode.isWhiteSpace c = false
  last : ∀ c ∈ text.getLast?, Unicode.isWhiteSpace c = false

theorem trimmed_of_visible {text : List Char} (hnonempty : text ≠ [])
    (hvisible : ∀ c ∈ text, Unicode.isWhiteSpace c = false) : Trimmed text :=
  ⟨hnonempty, fun c hc => hvisible c (List.mem_of_head? hc),
    fun c hc => hvisible c (List.mem_of_getLast? hc)⟩

/-- Only what stands at the ends has to be trimmed. -/
theorem Trimmed.around {front back : List Char} (hfront : Trimmed front) (hback : Trimmed back)
    (mid : List Char) : Trimmed (front ++ (mid ++ back)) := by
  have hbehind : mid ++ back ≠ [] := List.append_ne_nil_of_right_ne_nil mid hback.nonempty
  refine ⟨List.append_ne_nil_of_left_ne_nil hfront.nonempty _, ?_, ?_⟩
  · rw [List.head?_append_of_ne_nil _ hfront.nonempty]
    exact hfront.first
  · rw [List.getLast?_append_of_ne_nil _ hbehind, List.getLast?_append_of_ne_nil _ hback.nonempty]
    exact hback.last

theorem Trimmed.trim_eq {text : List Char} (htext : Trimmed text) : trim text = text := by
  have hstart : trimStart text = text := by
    cases text with
    | nil => rfl
    | cons c rest => simp [trimStart, htext.first c rfl]
  have hlast : trimEnd text = text := by
    cases text using List.reverseRecOn with
    | nil => rfl
    | append_singleton init c => simp [trimEnd, htext.last c (by simp)]
  rw [trim, hstart, hlast]

theorem trim_cons {c : Char} (hwhite : Unicode.isWhiteSpace c = true) (text : List Char) :
    trim (c :: text) = trim text := by
  rw [trim, trim, trimStart, List.dropWhile_cons_of_pos hwhite]
  rfl

theorem Trimmed.dropReturn_eq {line : List Char} (hline : Trimmed line) :
    dropReturn line = line := by
  rw [dropReturn, if_neg]
  intro hreturn
  have hvisible := hline.last '\r' hreturn
  revert hvisible
  decide

/-- Lines that are trimmed are read back whether they are closed or joined. -/
theorem linesOf_trimmed {lines : List (List Char)}
    (hlines : ∀ line ∈ lines, Trimmed line ∧ '\n' ∉ line) :
    linesOf (closeLines lines) = lines ∧ linesOf (joinLines lines) = lines := by
  have hkept : ∀ some : List (List Char), (∀ line ∈ some, line ∈ lines) →
      some.map dropReturn = some := by
    intro some hsome
    rw [List.map_congr_left fun line hmem => (hlines line (hsome line hmem)).1.dropReturn_eq]
    exact List.map_id some
  rw [linesOf_closed fun line hmem => (hlines line hmem).2,
    linesOf_joined fun line hmem => (hlines line hmem).2, hkept lines fun _ => id,
    hkept lines.dropLast fun _ hmem => List.dropLast_subset lines hmem]
  refine ⟨rfl, ?_⟩
  cases lines using List.reverseRecOn with
  | nil => rfl
  | append_singleton init last =>
    have hlast := (hlines last (by simp)).1.nonempty
    simp [hlast]

/-! ### Words and ranges -/

/-- Words with a blank between each two of them are read back. -/
theorem wordsOf_intercalate {words : List (List Char)}
    (hwords : ∀ word ∈ words, word ≠ [] ∧ ∀ c ∈ word, Unicode.isWhiteSpace c = false) :
    wordsOf ([' '].intercalate words) = words := by
  have hblank : Unicode.isWhiteSpace ' ' = true := by decide
  rw [wordsOf]
  induction words with
  | nil => rfl
  | cons word rest ih =>
    obtain ⟨⟨hne, hvisible⟩, hrest⟩ := List.forall_mem_cons.mp hwords
    by_cases hnil : rest = []
    · subst hnil
      rw [List.intercalate_singleton, List.splitOnP_eq_singleton hvisible]
      simp [hne]
    · rw [List.intercalate_cons_of_ne_nil hnil, List.append_assoc, List.singleton_append,
        List.splitOnP_append_cons_of_forall_mem hvisible ' ' hblank, List.filter_cons_of_pos,
        ih hrest]
      simpa using hne

/-- A text is cut at its first `..`, and none stands in front of that, not even one that shares a
full stop with it. -/
theorem splitAtDots?_eq_some_iff {text front back : List Char} :
    splitAtDots? text = some (front, back) ↔
      text = front ++ '.' :: '.' :: back ∧ ¬ ['.', '.'] <:+: front ++ ['.'] := by
  fun_induction splitAtDots? text generalizing front with
  | case1 => simp
  | case2 rest =>
    constructor
    · intro heq
      cases heq
      exact ⟨rfl, by decide⟩
    · rintro ⟨htext, hfirst⟩
      cases front with
      | nil =>
        cases htext
        rfl
      | cons x more =>
        obtain ⟨rfl, hrest⟩ := List.cons.inj htext
        have hnext : ['.'] <+: more ++ ['.'] := by
          cases more with
          | nil => exact List.prefix_rfl
          | cons y more => simpa using (List.cons.inj hrest).1
        exact absurd (List.cons_prefix_cons.mpr ⟨rfl, hnext⟩).isInfix hfirst
  | case3 c rest hdots ih =>
    rw [Option.map_eq_some_iff]
    constructor
    · rintro ⟨⟨left, right⟩, hrest, heq⟩
      cases heq
      obtain ⟨rfl, hfirst⟩ := ih.mp hrest
      refine ⟨rfl, ?_⟩
      rw [List.cons_append, List.infix_cons_iff, not_or]
      refine ⟨?_, hfirst⟩
      intro hprefix
      obtain ⟨rfl, hnext⟩ := List.cons_prefix_cons.mp hprefix
      cases left with
      | nil => exact hdots _ rfl rfl
      | cons y more =>
        obtain ⟨rfl, -⟩ := List.cons_prefix_cons.mp hnext
        exact hdots _ rfl rfl
    · rintro ⟨htext, hfirst⟩
      cases front with
      | nil =>
        cases htext
        exact absurd rfl (hdots _ rfl)
      | cons x more =>
        obtain ⟨rfl, rfl⟩ := List.cons.inj htext
        refine ⟨(more, back), ih.mpr ⟨rfl, ?_⟩, rfl⟩
        exact fun hmore => hfirst (List.infix_cons_iff.mpr (.inr hmore))

/-- Only a text without `..` is not cut. -/
theorem splitAtDots?_eq_none_iff {text : List Char} :
    splitAtDots? text = none ↔ ¬ ['.', '.'] <:+: text := by
  fun_induction splitAtDots? text with
  | case1 => simp
  | case2 rest => simpa using (List.prefix_append ['.', '.'] rest).isInfix
  | case3 c rest hdots ih =>
    rw [Option.map_eq_none_iff, ih, List.infix_cons_iff, not_or]
    refine ⟨fun hrest => ⟨?_, hrest⟩, And.right⟩
    rintro ⟨back, hback⟩
    cases hback
    exact hdots _ rfl rfl

theorem splitAtDots?_of_not_mem {text : List Char} (hdot : '.' ∉ text) :
    splitAtDots? text = none :=
  splitAtDots?_eq_none_iff.mpr fun hdots => hdot (hdots.subset List.mem_cons_self)

theorem splitAtDots?_append {front : List Char} (hdot : '.' ∉ front) (back : List Char) :
    splitAtDots? (front ++ '.' :: '.' :: back) = some (front, back) := by
  induction front with
  | nil => rfl
  | cons c rest ih =>
    obtain ⟨hc, hrest⟩ : '.' ≠ c ∧ '.' ∉ rest := by simpa using hdot
    rw [List.cons_append, splitAtDots?, ih hrest]
    · rfl
    · rintro other rfl
      exact absurd rfl hc

end EmojiPatterns
