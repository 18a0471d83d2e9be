import EmojiPatterns.Proofs.CanonicalClasses
import EmojiPatterns.Proofs.MemberEnds

/-!
# Fragments of single characters

A fragment can be asked for the set of its characters, and it has one only if each of its leaves is
a class or a sequence of one character.  A sequence of more characters is a word wherever in the
tree it stands, so the answer says what the fragment takes: nothing but single characters, and just
those of the set.  An empty choice takes no word, so it has the empty set.  Main statement:
`Fragment.singles_are_exact`.
-/

namespace EmojiPatterns

theorem Sequence.isSingle_iff {sequence : Sequence} :
    sequence.isSingle = true ↔ ∃ c, sequence.chars = [c] := by
  rw [isSingle, beq_iff_eq, length, List.length_eq_one_iff]

namespace Fragment

/-- A text is accepted if it is a word. -/
theorem accepts_iff_takes {fragment : Fragment} {text : List Char} :
    fragment.accepts text = true ↔ fragment.Takes text := by
  simp only [accepts, List.any_eq_true, mem_ends_iff, decide_eq_true_eq]
  constructor
  · rintro ⟨d, ⟨word, htakes, hahead⟩, hend⟩
    rw [show d.ahead = [] from hend, List.append_nil] at hahead
    exact (show text = word from hahead) ▸ htakes
  · intro htakes
    obtain ⟨d, hend⟩ := Cursor.exists_ahead_eq (c := Cursor.start text) (List.append_nil text).symm
    exact ⟨d, ⟨text, htakes, by rw [hend, List.append_nil]; rfl⟩, hend⟩

mutual

/-- The characters that are found are the words. -/
theorem takes_iff_of_singles? (fragment : Fragment) {cls : CharClass} {word : List Char}
    (hsingles : fragment.singles? = some cls) :
    fragment.Takes word ↔ ∃ c, cls.contains c = true ∧ word = [c] := by
  match fragment with
  | literal sequence =>
    rw [singles?, Option.ite_none_right_eq_some] at hsingles
    obtain ⟨hsingle, hcls⟩ := hsingles
    have hchars := Sequence.chars_of_isSingle hsingle
    rw [Option.some.injEq] at hcls
    simp only [← hcls, CharClass.contains_ofChars_iff, List.mem_singleton, exists_eq_left]
    constructor
    · rintro ⟨⟩
      exact hchars
    · rintro rfl
      exact hchars ▸ .literal sequence
  | oneOf others =>
    obtain rfl := Option.some.inj hsingles
    constructor
    · rintro (_ | hcontains)
      exact ⟨_, hcontains, rfl⟩
    · rintro ⟨c, hcontains, rfl⟩
      exact .oneOf hcontains
  | choice choices =>
    rw [← exists_takes_iff_of_singlesOfAll? choices hsingles]
    constructor
    · rintro (_ | _ | ⟨hmem, htakes⟩)
      exact ⟨_, hmem, htakes⟩
    · rintro ⟨fragment, hmem, htakes⟩
      exact .choice hmem htakes

theorem exists_takes_iff_of_singlesOfAll? (fragments : List Fragment) {cls : CharClass}
    {word : List Char} (hsingles : singlesOfAll? fragments = some cls) :
    (∃ fragment ∈ fragments, fragment.Takes word) ↔ ∃ c, cls.contains c = true ∧ word = [c] := by
  match fragments with
  | [] =>
    obtain rfl := Option.some.inj hsingles
    simp [CharClass.contains, CharClass.empty]
  | fragment :: rest =>
    rw [singlesOfAll?] at hsingles
    split at hsingles
    · next head others hhead hothers =>
      obtain rfl := Option.some.inj hsingles
      simp only [List.mem_cons, exists_eq_or_imp]
      rw [takes_iff_of_singles? fragment hhead, exists_takes_iff_of_singlesOfAll? rest hothers]
      simp only [CharClass.contains_union_iff, or_and_right, exists_or]
      exact or_comm
    · nomatch hsingles

end

mutual

/-- Where no set of characters is found, there is a word that is not a single character. -/
theorem exists_takes_of_singles?_eq_none (fragment : Fragment)
    (hsingles : fragment.singles? = none) : ∃ word, fragment.Takes word ∧ ∀ c, word ≠ [c] := by
  match fragment with
  | literal sequence =>
    have hmany : ¬ sequence.isSingle = true := by
      intro hsingle
      simp [singles?, hsingle] at hsingles
    refine ⟨sequence.chars, .literal sequence, ?_⟩
    intro c hchars
    exact hmany (Sequence.isSingle_iff.mpr ⟨c, hchars⟩)
  | oneOf cls => nomatch hsingles
  | choice choices =>
    obtain ⟨chosen, hmem, word, htakes, hmany⟩ :=
      exists_takes_of_singlesOfAll?_eq_none choices hsingles
    exact ⟨word, .choice hmem htakes, hmany⟩

theorem exists_takes_of_singlesOfAll?_eq_none (fragments : List Fragment)
    (hsingles : singlesOfAll? fragments = none) :
    ∃ fragment ∈ fragments, ∃ word, fragment.Takes word ∧ ∀ c, word ≠ [c] := by
  match fragments with
  | [] => nomatch hsingles
  | fragment :: rest =>
    cases hhead : fragment.singles? with
    | none =>
      exact ⟨fragment, List.mem_cons_self, exists_takes_of_singles?_eq_none fragment hhead⟩
    | some cls =>
      have hrest : singlesOfAll? rest = none := by
        cases hrest : singlesOfAll? rest with
        | none => rfl
        | some others => simp [singlesOfAll?, hhead, hrest] at hsingles
      obtain ⟨chosen, hmem, hword⟩ := exists_takes_of_singlesOfAll?_eq_none rest hrest
      exact ⟨chosen, List.mem_cons_of_mem fragment hmem, hword⟩

end

/-- There is a set of characters if all that is accepted is single characters. -/
theorem isSome_singles?_iff {fragment : Fragment} :
    fragment.singles?.isSome ↔ ∀ text, fragment.accepts text = true → ∃ c, text = [c] := by
  simp only [accepts_iff_takes]
  constructor
  · intro hsome word htakes
    obtain ⟨cls, hsingles⟩ := Option.isSome_iff_exists.mp hsome
    obtain ⟨c, -, hword⟩ := (takes_iff_of_singles? fragment hsingles).mp htakes
    exact ⟨c, hword⟩
  · intro hall
    rw [← Option.ne_none_iff_isSome]
    intro hnone
    obtain ⟨word, htakes, hmany⟩ := exists_takes_of_singles?_eq_none fragment hnone
    obtain ⟨c, hword⟩ := hall word htakes
    exact hmany c hword

/-- Just the characters of the set are accepted. -/
theorem accepts_iff_of_singles? {fragment : Fragment} {cls : CharClass} {text : List Char}
    (hsingles : fragment.singles? = some cls) :
    fragment.accepts text = true ↔ ∃ c ∈ cls.chars, text = [c] := by
  simp only [accepts_iff_takes, takes_iff_of_singles? fragment hsingles, CharClass.mem_chars_iff]

/-- The fragment of a set accepts just the members as texts. -/
theorem accepts_chars_iff {set : StringSet} {merge : Bool} {sequence : Sequence} :
    (set.fragment merge).accepts sequence.chars = true ↔ sequence ∈ set.sequences := by
  rw [set.accepts_iff]
  constructor
  · rintro ⟨other, hmem, hchars⟩
    exact Sequence.ext hchars ▸ hmem
  · intro hmem
    exact ⟨sequence, hmem, rfl⟩

/-- A fragment has a set of characters if it accepts single characters only, and then it accepts
just those of the set.  So the fragment of a set has one if each member is a single character, and
then the characters are the members, whether they were merged into a class or not. -/
theorem singles_are_exact :
    (∀ fragment : Fragment,
      (fragment.singles?.isSome ↔ ∀ text, fragment.accepts text = true → ∃ c, text = [c]) ∧
      ∀ cls, fragment.singles? = some cls →
        ∀ text, fragment.accepts text = true ↔ ∃ c ∈ cls.chars, text = [c]) ∧
    ∀ (set : StringSet) (merge : Bool),
      ((set.fragment merge).singles?.isSome ↔ ∀ sequence ∈ set.sequences, sequence.isSingle) ∧
      ∀ cls, (set.fragment merge).singles? = some cls →
        ∀ sequence, sequence ∈ set.sequences ↔ ∃ c ∈ cls.chars, sequence = .singleton c := by
  refine ⟨fun _ => ⟨isSome_singles?_iff, fun _ hsingles _ => accepts_iff_of_singles? hsingles⟩, ?_⟩
  intro set merge
  constructor
  · simp only [isSome_singles?_iff, set.accepts_iff, Sequence.isSingle_iff, forall_exists_index,
      and_imp, forall_apply_eq_imp_iff₂]
  · intro cls hsingles sequence
    have hmember : (set.fragment merge).accepts sequence.chars = true ↔
        sequence ∈ set.sequences := accepts_chars_iff
    rw [← hmember, accepts_iff_of_singles? hsingles]
    simp only [Sequence.ext_iff]
    rfl

/-- Leaves at any depth count, and an empty choice adds nothing. -/
theorem singles_are_exact_nested :
    (choice [choice [], literal (.singleton 'b'), oneOf (.ofChars ['\ud7ff'])]).singles? =
        some ⟨[⟨'b', 'b'⟩, ⟨'\ud7ff', '\ud7ff'⟩]⟩ ∧
      (choice [choice [], literal (.singleton 'b'), oneOf (.ofChars ['\ud7ff'])]).accepts
        ['\ud7ff'] = true ∧
      ¬ (choice [choice [], literal (.singleton 'b'), oneOf (.ofChars ['\ud7ff'])]).accepts
        ['b', '\ud7ff'] = true := by
  have hsingles :
      (choice [choice [], literal (.singleton 'b'), oneOf (.ofChars ['\ud7ff'])]).singles? =
        some ⟨[⟨'b', 'b'⟩, ⟨'\ud7ff', '\ud7ff'⟩]⟩ := by
    cbv
  have haccepts := (singles_are_exact.1 _).2 _ hsingles
  refine ⟨hsingles, (haccepts _).mpr ⟨'\ud7ff', by decide, rfl⟩, ?_⟩
  intro hpair
  obtain ⟨c, -, hchars⟩ := (haccepts _).mp hpair
  cases hchars

end Fragment

end EmojiPatterns
