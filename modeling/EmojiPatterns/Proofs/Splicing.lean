import EmojiPatterns.Proofs.Lockstep
import EmojiPatterns.Proofs.SetMembers

/-!
# Splicing properties of strings

An escape that names a property of strings stands for the fragment of its set.  The fragment takes
its members as one unit each and all at once, but it leads to the same ends in the same order as a
choice among the members that are spelled out character by character.  Main statement:
`Pattern.splicing_is_alternation`.
-/

namespace EmojiPatterns

variable {text : List Char}

namespace Node

/-- The characters of a word one after another. -/
def word (chars : List Char) : Node :=
  sequence (chars.map char)

theorem ends_char (x : Char) (c : Cursor text) :
    (char x).ends c = (c.advance? [x]).toList := by
  simp only [ends, steps, Steps.next, Cursor.advance?]
  cases c.next? with
  | none => rfl
  | some step =>
    obtain ⟨y, d⟩ := step
    by_cases hxy : x = y
    · simp [hxy]
    · simp [hxy, Ne.symm hxy]

/-- Spelled out, a word leads to the same place as in one go. -/
theorem ends_word (chars : List Char) (c : Cursor text) :
    (word chars).ends c = (c.advance? chars).toList := by
  induction chars generalizing c with
  | nil => rfl
  | cons x rest ih =>
    have hsplit := c.advance?_append [x] rest
    rw [List.singleton_append] at hsplit
    rw [word, List.map_cons, ends_sequence_cons, ends_char, hsplit]
    cases c.advance? [x] with
    | none => rfl
    | some d => simpa [word] using ih d

theorem repeatable_word {chars : List Char} (hchars : chars ≠ []) :
    (word chars).repeatable = true := by
  match chars with
  | [x] => rfl
  | x :: y :: rest => rfl

theorem repeatable_choice {first : Node} (hfirst : first.repeatable = true) (rest : List Node) :
    (choice first rest).repeatable = true := by
  cases rest with
  | nil => exact hfirst
  | cons second rest => rfl

end Node

namespace StringSet

variable (set : StringSet) (merge : Bool)

theorem tried_ne_nil : set.tried ≠ [] := by
  intro hnil
  obtain ⟨sequence, hmem⟩ := List.exists_mem_of_ne_nil _ set.nonempty
  simp [← mem_tried, hnil] at hmem

/-- The choice among the members, each spelled out, the longest first and in ascending order among
those of one length. -/
def alternation : Node :=
  Node.choice (Node.word (set.tried.head set.tried_ne_nil).chars)
    (set.tried.tail.map fun sequence => Node.word sequence.chars)

theorem ends_alternation (c : Cursor text) :
    set.alternation.ends c = set.tried.filterMap fun sequence => c.advance? sequence.chars := by
  rw [alternation, Node.ends_choice]
  change ((set.tried.head set.tried_ne_nil :: set.tried.tail).map fun sequence =>
    Node.word sequence.chars).flatMap (fun node => node.ends c) = _
  rw [List.cons_head_tail, List.flatMap_map, List.filterMap_eq_flatMap_toList]
  simp only [Node.ends_word]

/-- However its characters are merged, the fragment of a set agrees with the choice. -/
theorem agrees_alternation : (Node.strings (set.fragment merge)).Agrees set.alternation := by
  constructor
  · intro text
    apply Steps.ext
    funext c
    exact (set.ends_fragment merge c).trans (set.ends_alternation c).symm
  · have hfirst := Node.repeatable_word (set.tried.head set.tried_ne_nil).nonempty
    exact (Node.repeatable_choice hfirst _).symm

end StringSet

namespace Resolver

variable (table : Table) (charProperty? : String → Option (Char → Bool))

/-- What an escape stands for does not depend on merging, but for the shape of a fragment. -/
theorem agrees_merge :
    Resolver.Agrees ⟨table, charProperty?, true⟩ ⟨table, charProperty?, false⟩ := by
  constructor
  · intro reference
    cases hset : table.lookup? reference.name with
    | none =>
      simp only [Draft.resolve, resolve, hset]
      exact .refl Node.Agrees.refl _
    | some set =>
      simp only [Draft.resolve, resolve, hset]
      cases reference.validate with
      | error error => exact .error _
      | ok _ => exact .ok ((set.agrees_alternation true).trans (set.agrees_alternation false).symm)
  · intro reference
    cases hset : table.lookup? reference.name with
    | none => simp only [Draft.resolveInClass, resolve, hset]
    | some set =>
      simp only [Draft.resolveInClass, resolve, hset]
      cases reference.validate with
      | error error => rfl
      | ok _ => rfl

end Resolver

namespace Draft

/-- An escape that names a property of strings stands for the fragment of its set, where a property
of strings may stand at all. -/
theorem resolve_eq_ok_iff {resolver : Resolver} {reference : PropertyReference} {set : StringSet}
    {node : Node} (hset : resolver.table.lookup? reference.name = some set) :
    resolve resolver reference = .ok node ↔
      reference.validate = .ok () ∧ node = .strings (set.fragment resolver.merge) := by
  simp only [resolve, Resolver.resolve, hset]
  cases reference.validate with
  | error error => simp
  | ok _ =>
    simp only [Except.ok.injEq, true_and]
    exact eq_comm

end Draft

namespace Pattern

/-- An escape that names a property of strings stands, where it may stand at all, for a node that
can be exchanged for the choice among the members, at any places of any tree, without that matching
shows it.  So it does not show either whether members of one character are merged. -/
theorem splicing_is_alternation {table : Table} {name : String} {set : StringSet}
    (hset : table.lookup? name = some set) (charProperty? : String → Option (Char → Bool))
    (merge : Bool) :
    (∀ (reference : PropertyReference) (node : Node), reference.name = name →
      (Draft.resolve ⟨table, charProperty?, merge⟩ reference = .ok node ↔
        reference.validate = .ok () ∧ node = .strings (set.fragment merge))) ∧
    (∀ pattern other : Pattern,
      Node.Exchange (.strings (set.fragment merge)) set.alternation pattern.root other.root →
        pattern.Alike other) ∧
    ∀ source : List Char,
      SameResult Pattern.Alike (compile ⟨table, charProperty?, true⟩ source)
        (compile ⟨table, charProperty?, false⟩ source) := by
  refine ⟨?_, ?_, ?_⟩
  · intro reference node hname
    subst hname
    exact Draft.resolve_eq_ok_iff hset
  · intro pattern other hexchange
    exact alike_of_agrees (hexchange.agrees (set.agrees_alternation merge))
  · exact sameResult_compile (Resolver.agrees_merge table charProperty?)

theorem splicing_is_alternation_keycaps :
    ∃ set : StringSet,
      Table.lookup? ⟨.pinned, [(.keycapSequence, set)]⟩ "Emoji_Keycap_Sequence" = some set ∧
        Pattern.Alike ⟨[], .seq (.strings (set.fragment true)) .anyChar⟩
          ⟨[], .seq set.alternation .anyChar⟩ := by
  let set : StringSet :=
    ⟨"Emoji_Keycap_Sequence", [.singleton '#', ⟨['#', '\u20E3'], by simp⟩], by decide, by simp⟩
  have hset : Table.lookup? ⟨.pinned, [(.keycapSequence, set)]⟩ "Emoji_Keycap_Sequence" =
      some set := rfl
  exact ⟨set, hset,
    (splicing_is_alternation hset (fun _ => none) true).2.1 _ _ (.seq .here (.same _))⟩

end Pattern

end EmojiPatterns
