import EmojiPatterns.Fragment
import EmojiPatterns.Proofs.Places

/-!
# The words of a fragment

Apart from the order in which it tries them, a fragment is a set of words: a sequence, a single
character of a class, or the words of any of several fragments.  Main statement: its ends from a
place are the places behind those of its words that lie ahead (`Fragment.mem_ends_iff`).
-/

namespace EmojiPatterns.Fragment

variable {text : List Char}

/-- The words that a fragment takes. -/
inductive Takes : Fragment → List Char → Prop where
  | literal (sequence : Sequence) : Takes (.literal sequence) sequence.chars
  | oneOf {cls : CharClass} {x : Char} (hcontains : cls.contains x = true) : Takes (.oneOf cls) [x]
  | choice {choices : List Fragment} {fragment : Fragment} {word : List Char}
      (hmem : fragment ∈ choices) (htakes : Takes fragment word) : Takes (.choice choices) word

theorem endsOfAll_eq_flatMap (c : Cursor text) (fragments : List Fragment) :
    endsOfAll c fragments = fragments.flatMap fun fragment => fragment.ends c := by
  induction fragments with
  | nil => rw [endsOfAll, List.flatMap_nil]
  | cons fragment rest ih => rw [endsOfAll, List.flatMap_cons, ih]

theorem afterOneOf?_eq_some_iff {cls : CharClass} {c d : Cursor text} :
    afterOneOf? cls c = some d ↔ ∃ x, cls.contains x = true ∧ c.ahead = x :: d.ahead := by
  rw [afterOneOf?]
  cases hnext : c.next? with
  | none =>
    have hend : c.ahead = [] := Cursor.next?_eq_none_iff.mp hnext
    simp [hend]
  | some step =>
    obtain ⟨y, e⟩ := step
    rw [Cursor.next?_eq_some_iff] at hnext
    constructor
    · intro hsome
      by_cases hcontains : cls.contains y = true
      · simp only [hcontains, ↓reduceIte, Option.some.injEq] at hsome
        exact ⟨y, hcontains, hsome ▸ hnext⟩
      · simp [hcontains] at hsome
    · intro hfits
      obtain ⟨x, hcontains, hahead⟩ := hfits
      obtain ⟨rfl, hrest⟩ := List.cons.inj (hnext.symm.trans hahead)
      simp only [hcontains, ↓reduceIte]
      exact congrArg some (Cursor.ext_ahead hrest)

/-- The ends of a fragment are the places behind its words. -/
theorem mem_ends_iff {c d : Cursor text} (fragment : Fragment) :
    d ∈ fragment.ends c ↔ ∃ word, fragment.Takes word ∧ c.ahead = word ++ d.ahead := by
  match fragment with
  | .literal sequence =>
    rw [ends, Option.mem_toList, Cursor.advance?_eq_some_iff]
    constructor
    · intro hahead
      exact ⟨_, .literal sequence, hahead⟩
    · rintro ⟨word, ⟨⟩, hahead⟩
      exact hahead
  | .oneOf cls =>
    rw [ends, Option.mem_toList, afterOneOf?_eq_some_iff]
    constructor
    · intro hfits
      obtain ⟨x, hcontains, hahead⟩ := hfits
      exact ⟨[x], .oneOf hcontains, hahead⟩
    · intro hword
      obtain ⟨word, htakes, hahead⟩ := hword
      cases htakes with
      | oneOf hcontains => exact ⟨_, hcontains, hahead⟩
  | .choice choices =>
    rw [ends, endsOfAll_eq_flatMap, List.mem_flatMap]
    constructor
    · intro hchosen
      obtain ⟨chosen, hmem, hends⟩ := hchosen
      obtain ⟨word, htakes, hahead⟩ := (mem_ends_iff chosen).mp hends
      exact ⟨word, .choice hmem htakes, hahead⟩
    · intro hword
      obtain ⟨word, htakes, hahead⟩ := hword
      cases htakes with
      | @choice _ chosen _ hmem htakes =>
        exact ⟨chosen, hmem, (mem_ends_iff chosen).mpr ⟨word, htakes, hahead⟩⟩
termination_by sizeOf fragment
decreasing_by
  all_goals
    have hsize := List.sizeOf_lt_of_mem hmem
    simp only [choice.sizeOf_spec]
    omega

theorem le_of_mem_ends {c d : Cursor text} {fragment : Fragment} (hmem : d ∈ fragment.ends c) :
    c ≤ d := by
  obtain ⟨word, -, hahead⟩ := (mem_ends_iff fragment).mp hmem
  exact Cursor.le_of_ahead_eq hahead

end EmojiPatterns.Fragment
