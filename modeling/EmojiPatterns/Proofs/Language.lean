import EmojiPatterns.Proofs.PatternEnds

/-!
# The language of a pattern

A pattern also has a meaning without any order: it relates places of a text, a repetition being a
chain of any admitted number of iterations, and those that stay where they are count as well as
all others.  Matching explores less than that, since it gives up an iteration that comes no further
once there are enough.  Nothing is lost by it: such an iteration can be left out of a chain.  Main
statements: `Node.mem_ends_iff_relates`, `Pattern.matching_sound_and_complete`.
-/

namespace EmojiPatterns

variable {text : List Char}

/-- A chain of a given number of links. -/
def Chain (link : Cursor text → Cursor text → Prop) : Nat → Cursor text → Cursor text → Prop
  | 0, c, d => d = c
  | count + 1, c, d => ∃ e, link c e ∧ Chain link count e d

namespace Node

/-- Whether a node leads from one place to another. -/
def Relates : Node → Cursor text → Cursor text → Prop
  | empty, c, d => d = c
  | char x, c, d => c.ahead = x :: d.ahead
  | anyChar, c, d => ∃ x, isLineTerminator x = false ∧ c.ahead = x :: d.ahead
  | set chars, c, d => ∃ x, chars.contains x = true ∧ c.ahead = x :: d.ahead
  | strings fragment, c, d => ∃ word, fragment.Takes word ∧ c.ahead = word ++ d.ahead
  | seq first second, c, d => ∃ e, first.Relates c e ∧ second.Relates e d
  | alt first second, c, d => first.Relates c d ∨ second.Relates c d
  | iterate body quantifier, c, d =>
    ∃ count, quantifier.least ≤ count ∧ (∀ most ∈ quantifier.most, count ≤ most) ∧
      Chain body.Relates count c d
  | look body negated, c, d => d = c ∧ ((∃ e, body.Relates c e) ↔ negated = false)
  | textStart, c, d => d = c ∧ c.offset = 0
  | textEnd, c, d => d = c ∧ c.offset = utf8Length text

end Node

namespace Steps

theorem mem_stay_iff {test : Cursor text → Bool} {c d : Cursor text} :
    d ∈ (stay test).ends c ↔ d = c ∧ test c = true := by
  simp only [stay]
  by_cases htest : test c = true
  · simp [htest]
  · simp [htest]

theorem mem_next_iff {test : Char → Bool} {c d : Cursor text} :
    d ∈ (next test).ends c ↔ ∃ x, test x = true ∧ c.ahead = x :: d.ahead := by
  simp only [next]
  cases hnext : c.next? with
  | none =>
    have hend : c.ahead = [] := Cursor.next?_eq_none_iff.mp hnext
    simp [hend]
  | some step =>
    obtain ⟨y, e⟩ := step
    rw [Cursor.next?_eq_some_iff] at hnext
    constructor
    · intro hmem
      by_cases htest : test y = true
      · simp only [htest, ↓reduceIte, List.mem_singleton] at hmem
        exact ⟨y, htest, hmem ▸ hnext⟩
      · simp [htest] at hmem
    · intro hfits
      obtain ⟨x, htest, hahead⟩ := hfits
      obtain ⟨rfl, hrest⟩ := List.cons.inj (hnext.symm.trans hahead)
      simp only [htest, ↓reduceIte, List.mem_singleton]
      exact Cursor.ext_ahead hrest.symm

variable {body : Steps text} {quantifier : Quantifier}

/-- Every end of a repetition lies at the end of a chain of iterations. -/
theorem chain_of_mem_rounds {count : Nat} {c d : Cursor text}
    (hcount : ∀ most ∈ quantifier.most, count ≤ most)
    (hmem : d ∈ body.rounds quantifier count c) :
    ∃ more, quantifier.least ≤ count + more ∧ (∀ most ∈ quantifier.most, count + more ≤ most) ∧
      Chain (fun a b => b ∈ body.ends a) more c d := by
  rw [rounds_eq, List.mem_append, List.mem_flatMap] at hmem
  rcases hmem with ⟨e, hround, hrest⟩ | hplace
  · obtain ⟨hallowed, hends, -⟩ := (body.mem_iteration_iff quantifier).mp hround
    obtain ⟨more, hleast, hmost, hchain⟩ := chain_of_mem_rounds hallowed hrest
    refine ⟨more + 1, by omega, ?_, e, hends, hchain⟩
    intro most hmem
    have hbound := hmost most hmem
    omega
  · split at hplace
    · next hleast =>
      exact ⟨0, hleast, hcount, List.mem_singleton.mp hplace⟩
    · simp at hplace
termination_by (quantifier.least - count, c.ahead.length)
decreasing_by exact Repetition.progress (body.progress_of_mem_iteration quantifier hround)

/-- The end of every chain of iterations is an end of the repetition.  A link that stays where it
is, once there are enough, is left out of the chain. -/
theorem mem_rounds_of_chain {count more : Nat} {c d : Cursor text}
    (hleast : quantifier.least ≤ count + more)
    (hmost : ∀ most ∈ quantifier.most, count + more ≤ most)
    (hchain : Chain (fun a b => b ∈ body.ends a) more c d) :
    d ∈ body.rounds quantifier count c := by
  induction more generalizing count c with
  | zero =>
    rw [rounds_eq, List.mem_append, if_pos (show quantifier.least ≤ count by omega)]
    exact .inr (List.mem_singleton.mpr hchain)
  | succ more ih =>
    obtain ⟨e, hends, hrest⟩ := hchain
    by_cases hidle : quantifier.least ≤ count ∧ e = c
    · obtain ⟨henough, rfl⟩ := hidle
      apply ih (by omega) _ hrest
      intro most hmem
      have hbound := hmost most hmem
      omega
    · have hround : e ∈ body.iteration quantifier count c := by
        rw [mem_iteration_iff]
        refine ⟨?_, hends, ?_⟩
        · intro most hmem
          have hbound := hmost most hmem
          omega
        · rcases Nat.lt_or_ge count quantifier.least with hneeded | henough
          · exact .inl hneeded
          · right
            intro heq
            exact hidle ⟨henough, heq⟩
      rw [rounds_eq, List.mem_append, List.mem_flatMap]
      refine .inl ⟨e, hround, ih (by omega) ?_ hrest⟩
      intro most hmem
      have hbound := hmost most hmem
      omega

theorem mem_repeated_iff {c d : Cursor text} :
    d ∈ (body.repeated quantifier).ends c ↔
      ∃ count, quantifier.least ≤ count ∧ (∀ most ∈ quantifier.most, count ≤ most) ∧
        Chain (fun a b => b ∈ body.ends a) count c d := by
  constructor
  · intro hmem
    have hzero : ∀ most ∈ quantifier.most, 0 ≤ most := fun most _ => Nat.zero_le most
    simpa using chain_of_mem_rounds hzero hmem
  · intro hrounds
    obtain ⟨count, hleast, hmost, hchain⟩ := hrounds
    exact mem_rounds_of_chain (by omega) (by simpa using hmost) hchain

end Steps

namespace Node

/-- The ordered ends of a node from a place are the places to which it leads from there. -/
theorem mem_ends_iff_relates (node : Node) {c d : Cursor text} :
    d ∈ node.ends c ↔ node.Relates c d := by
  induction node generalizing c d with
  | empty => simp [ends, steps, Relates, Steps.mem_stay_iff]
  | char expected => simp [ends, steps, Relates, Steps.mem_next_iff]
  | anyChar => simp [ends, steps, Relates, Steps.mem_next_iff]
  | set chars => exact Steps.mem_next_iff
  | strings fragment => exact Fragment.mem_ends_iff fragment
  | seq first second ihfirst ihsecond =>
    rw [ends_seq, List.mem_flatMap]
    simp only [ihfirst, ihsecond, Relates]
  | alt first second ihfirst ihsecond =>
    rw [ends_alt, List.mem_append, ihfirst, ihsecond, Relates]
  | iterate body quantifier ih =>
    have hlink : (fun a b : Cursor text => b ∈ body.steps.ends a) = body.Relates := by
      funext a b
      exact propext ih
    rw [Relates, ← hlink]
    exact Steps.mem_repeated_iff
  | look body negated ih =>
    have hnone : (body.ends c).isEmpty = true ↔ ¬ ∃ e, body.Relates c e := by
      simp only [List.isEmpty_iff, List.eq_nil_iff_forall_not_mem, ih, not_exists]
    have htest : d ∈ (look body negated).ends c ↔ d = c ∧ (body.ends c).isEmpty = negated := by
      simp [ends, steps, Steps.mem_stay_iff]
    rw [htest, Relates]
    cases negated with
    | false => simp only [iff_true, ← Bool.not_eq_true, hnone, Classical.not_not]
    | true => simp only [Bool.true_eq_false, iff_false, hnone]
  | textStart => simp [ends, steps, Relates, Steps.mem_stay_iff]
  | textEnd => simp [ends, steps, Relates, Steps.mem_stay_iff]

end Node

namespace Pattern

/-- Whether the tree of a pattern leads from one offset of a text to another. -/
def Relates (pattern : Pattern) (text : List Char) (start stop : Nat) : Prop :=
  ∃ c d : Cursor text, c.offset = start ∧ d.offset = stop ∧ pattern.root.Relates c d

theorem relates_offset_iff {pattern : Pattern} {c : Cursor text} {stop : Nat} :
    pattern.Relates text c.offset stop ↔ ∃ d ∈ pattern.root.ends c, d.offset = stop := by
  constructor
  · intro hplaces
    obtain ⟨b, d, hstart, hstop, hrelates⟩ := hplaces
    rw [Cursor.ext_offset hstart] at hrelates
    exact ⟨d, (Node.mem_ends_iff_relates _).mpr hrelates, hstop⟩
  · intro hend
    obtain ⟨d, hmem, hstop⟩ := hend
    exact ⟨c, d, rfl, hstop, (Node.mem_ends_iff_relates _).mp hmem⟩

/-- A match is found at a place exactly if the pattern leads anywhere from there, and what is found
is a place to which it leads.  A whole text matches exactly if the pattern leads from its start to
its end. -/
theorem matching_sound_and_complete (pattern : Pattern) (text : List Char) :
    (∀ c : Cursor text,
      ((pattern.matchAt text c.offset).isSome = true ↔
        ∃ stop, pattern.Relates text c.offset stop) ∧
      ∀ stop, pattern.matchAt text c.offset = some stop → pattern.Relates text c.offset stop) ∧
    (pattern.isFullMatch text = true ↔ pattern.Relates text 0 (utf8Length text)) := by
  refine ⟨?_, ?_⟩
  · intro c
    rw [matchAt_offset]
    constructor
    · simp only [relates_offset_iff, Option.isSome_map, List.isSome_head?]
      constructor
      · intro hsome
        obtain ⟨d, hmem⟩ := List.exists_mem_of_ne_nil _ hsome
        exact ⟨d.offset, d, hmem, rfl⟩
      · intro hrelated
        obtain ⟨stop, d, hmem, -⟩ := hrelated
        exact List.ne_nil_of_mem hmem
    · intro stop hfound
      obtain ⟨d, hhead, hstop⟩ := Option.map_eq_some_iff.mp hfound
      exact relates_offset_iff.mpr ⟨d, List.mem_of_mem_head? hhead, hstop⟩
  · rw [isFullMatch_iff]
    exact relates_offset_iff.symm

end Pattern

end EmojiPatterns
