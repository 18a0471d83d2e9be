import EmojiPatterns.Proofs.SoundLines

/-!
# White space in fields

White space around a text is lost when the text is trimmed, and between words any amount of it is
as good as any other.  `Padded` and `Spaced` say how a text can be written with white space, and a
field of code points reads the same however that is done.  Main statements: `spaced_iff`,
`FieldReading.ofField_of_padded`.
-/

namespace EmojiPatterns

/-- White space, or nothing. -/
def Blank (gap : List Char) : Prop :=
  ∀ c ∈ gap, Unicode.isWhiteSpace c = true

instance (gap : List Char) : Decidable (Blank gap) :=
  List.decidableBAll _ gap

/-- A text with white space around it. -/
def Padded (inner text : List Char) : Prop :=
  ∃ before behind, Blank before ∧ Blank behind ∧ text = before ++ (inner ++ behind)

/-- A text of words with white space around each of them and between each two of them. -/
inductive Spaced : List (List Char) → List Char → Prop where
  | blank {gap : List Char} (hgap : Blank gap) : Spaced [] gap
  | word {gap word text : List Char} {words : List (List Char)} (hgap : Blank gap)
      (hne : word ≠ []) (hword : ∀ c ∈ word, Unicode.isWhiteSpace c = false)
      (hnext : ∀ c ∈ text.head?, Unicode.isWhiteSpace c = true) (hrest : Spaced words text) :
      Spaced (word :: words) (gap ++ (word ++ text))

variable {gap inner text : List Char}

theorem blank_nil : Blank [] :=
  List.forall_mem_nil _

theorem padded_refl (text : List Char) : Padded text text :=
  ⟨[], [], blank_nil, blank_nil, by simp⟩

/-! ### Around a text -/

theorem trim_blank_append (hgap : Blank gap) (text : List Char) :
    trim (gap ++ text) = trim text := by
  induction gap with
  | nil => rfl
  | cons c rest ih =>
    obtain ⟨hc, hrest⟩ := List.forall_mem_cons.mp hgap
    rw [List.cons_append, trim_cons hc, ih hrest]

theorem trim_append_blank (hgap : Blank gap) (text : List Char) :
    trim (text ++ gap) = trim text := by
  induction gap generalizing text with
  | nil => rw [List.append_nil]
  | cons c rest ih =>
    obtain ⟨hc, hrest⟩ := List.forall_mem_cons.mp hgap
    rw [← List.singleton_append, ← List.append_assoc, ih hrest, trim_concat hc]

theorem Padded.trim_eq (hpadded : Padded inner text) : trim text = trim inner := by
  obtain ⟨before, behind, hbefore, hbehind, rfl⟩ := hpadded
  rw [trim_blank_append hbefore, trim_append_blank hbehind]

/-- What is left when a text is trimmed had white space around it. -/
theorem padded_trim (text : List Char) : Padded (trim text) text := by
  have hparts : trimEnd (trimStart text) ++
      ((trimStart text).reverse.takeWhile Unicode.isWhiteSpace).reverse = trimStart text := by
    rw [trimEnd, ← List.reverse_append, List.takeWhile_append_dropWhile, List.reverse_reverse]
  refine ⟨text.takeWhile Unicode.isWhiteSpace,
    ((trimStart text).reverse.takeWhile Unicode.isWhiteSpace).reverse, ?_, ?_, ?_⟩
  · exact fun c hmem => List.mem_takeWhile_imp hmem
  · exact fun c hmem => List.mem_takeWhile_imp (List.mem_reverse.mp hmem)
  · rw [trim, hparts, trimStart, List.takeWhile_append_dropWhile]

/-! ### Between words -/

theorem wordsOf_append_cons {c : Char} (hwhite : Unicode.isWhiteSpace c = true)
    (front back : List Char) : wordsOf (front ++ c :: back) = wordsOf front ++ wordsOf back := by
  rw [wordsOf, List.splitOnP_append_cons front back hwhite, List.filter_append]
  rfl

theorem wordsOf_blank_append (hgap : Blank gap) (text : List Char) :
    wordsOf (gap ++ text) = wordsOf text := by
  induction gap with
  | nil => rfl
  | cons c rest ih =>
    obtain ⟨hc, hrest⟩ := List.forall_mem_cons.mp hgap
    rw [← ih hrest]
    exact wordsOf_append_cons hc [] (rest ++ text)

theorem wordsOf_of_blank (hgap : Blank gap) : wordsOf gap = [] :=
  calc
    wordsOf gap = wordsOf (gap ++ []) := by rw [List.append_nil]
    _ = wordsOf [] := wordsOf_blank_append hgap []
    _ = [] := rfl

theorem wordsOf_append_blank (hgap : Blank gap) (text : List Char) :
    wordsOf (text ++ gap) = wordsOf text := by
  cases gap with
  | nil => rw [List.append_nil]
  | cons c rest =>
    obtain ⟨hc, hrest⟩ := List.forall_mem_cons.mp hgap
    rw [wordsOf_append_cons hc, wordsOf_of_blank hrest, List.append_nil]

theorem Padded.wordsOf_eq (hpadded : Padded inner text) : wordsOf text = wordsOf inner := by
  obtain ⟨before, behind, hbefore, hbehind, rfl⟩ := hpadded
  rw [wordsOf_blank_append hbefore, wordsOf_append_blank hbehind]

theorem Spaced.wordsOf_eq {words : List (List Char)} (hspaced : Spaced words text) :
    wordsOf text = words := by
  induction hspaced with
  | blank hgap => exact wordsOf_of_blank hgap
  | @word gap word text words hgap hne hword hnext hrest ih =>
    have hone : wordsOf word = [word] := by
      rw [wordsOf, List.splitOnP_eq_singleton hword]
      simp [hne]
    rw [wordsOf_blank_append hgap, ← ih]
    cases text with
    | nil =>
      rw [List.append_nil, hone]
      rfl
    | cons c more =>
      have hc : Unicode.isWhiteSpace c = true := hnext c rfl
      rw [wordsOf_append_cons hc, hone]
      exact congrArg (word :: ·) (wordsOf_append_cons hc [] more).symm

theorem exists_spaced (text : List Char) : ∃ words, Spaced words text := by
  induction text with
  | nil => exact ⟨[], .blank blank_nil⟩
  | cons c rest ih =>
    obtain ⟨words, hspaced⟩ := ih
    by_cases hc : Unicode.isWhiteSpace c = true
    · cases hspaced with
      | blank hgap => exact ⟨[], .blank (List.forall_mem_cons.mpr ⟨hc, hgap⟩)⟩
      | word hgap hne hword hnext hrest =>
        exact ⟨_, .word (List.forall_mem_cons.mpr ⟨hc, hgap⟩) hne hword hnext hrest⟩
    · -- The character is a word by itself, or the first of the word that comes next.
      rw [Bool.not_eq_true] at hc
      have halone : (∀ d ∈ rest.head?, Unicode.isWhiteSpace d = true) →
          Spaced ([c] :: words) (c :: rest) := fun hnext =>
        .word blank_nil (List.cons_ne_nil c []) (List.forall_mem_singleton.mpr hc) hnext hspaced
      cases hspaced with
      | blank hgap => exact ⟨_, halone fun d hmem => hgap d (List.mem_of_mem_head? hmem)⟩
      | @word gap word text words hgap hne hword hnext hrest =>
        cases gap with
        | nil =>
          exact ⟨(c :: word) :: words, .word blank_nil (List.cons_ne_nil c word)
            (List.forall_mem_cons.mpr ⟨hc, hword⟩) hnext hrest⟩
        | cons d gap =>
          refine ⟨_, halone ?_⟩
          rintro _ ⟨⟩
          exact hgap d List.mem_cons_self

/-- The words of a text are those that it is written with. -/
theorem spaced_iff {words : List (List Char)} : Spaced words text ↔ wordsOf text = words := by
  refine ⟨Spaced.wordsOf_eq, ?_⟩
  rintro rfl
  obtain ⟨words, hspaced⟩ := exists_spaced text
  rw [hspaced.wordsOf_eq]
  exact hspaced

/-! ### In a field of code points -/

theorem dots_infix_blank_append_iff (hgap : Blank gap) (text : List Char) :
    ['.', '.'] <:+: gap ++ text ↔ ['.', '.'] <:+: text := by
  induction gap with
  | nil => rfl
  | cons c rest ih =>
    obtain ⟨hc, hrest⟩ := List.forall_mem_cons.mp hgap
    have hne : c ≠ '.' := Unicode.ne_of_isWhiteSpace hc (by decide)
    rw [List.cons_append, List.infix_cons_iff, ih hrest, List.cons_prefix_cons]
    simp [Ne.symm hne]

theorem Padded.dots_infix_iff (hpadded : Padded inner text) :
    ['.', '.'] <:+: text ↔ ['.', '.'] <:+: inner := by
  obtain ⟨before, behind, hbefore, hbehind, rfl⟩ := hpadded
  have hreverse : Blank behind.reverse := fun c hmem => hbehind c (List.mem_reverse.mp hmem)
  calc ['.', '.'] <:+: before ++ (inner ++ behind)
      ↔ ['.', '.'] <:+: inner ++ behind := dots_infix_blank_append_iff hbefore _
    _ ↔ ['.', '.'].reverse <:+: behind.reverse ++ inner.reverse := by
        rw [← List.reverse_append, List.reverse_infix]
    _ ↔ ['.', '.'].reverse <:+: inner.reverse := dots_infix_blank_append_iff hreverse _
    _ ↔ ['.', '.'] <:+: inner := List.reverse_infix

namespace FieldReading

/-- White space around a field is not looked at. -/
theorem ofField_of_padded (hpadded : Padded inner text) : ofField text = ofField inner := by
  cases hdots : splitAtDots? inner with
  | none =>
    have hnone : splitAtDots? text = none := by
      rw [splitAtDots?_eq_none_iff, hpadded.dots_infix_iff]
      exact splitAtDots?_eq_none_iff.mp hdots
    simp only [ofField, hdots, hnone, hpadded.wordsOf_eq]
  | some ends =>
    obtain ⟨front, back⟩ := ends
    obtain ⟨rfl, hfirst⟩ := splitAtDots?_eq_some_iff.mp hdots
    obtain ⟨before, behind, hbefore, hbehind, rfl⟩ := hpadded
    have hsome : splitAtDots? (before ++ (front ++ '.' :: '.' :: back ++ behind)) =
        some (before ++ front, back ++ behind) := by
      refine splitAtDots?_eq_some_iff.mpr ⟨by simp, ?_⟩
      rw [List.append_assoc, dots_infix_blank_append_iff hbefore]
      exact hfirst
    simp only [ofField, hdots, hsome, trim_blank_append hbefore, trim_append_blank hbehind]

end FieldReading

end EmojiPatterns
