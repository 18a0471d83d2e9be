import EmojiPatterns.Proofs.Composition
import Mathlib.Data.List.Basic

/-!
# Matching sees only what lies ahead

A place of a text is a place of every text that ends with it.  A tree without the sign for the start
of the text reaches the same places from there, in the same order: all that it asks is which
characters lie ahead and which of two places comes first, and neither depends on what lies behind.
Main statements: `Node.reached_shift`, `Pattern.matching_is_local`.
-/

namespace EmojiPatterns

variable {text : List Char}

/-! ### Places behind another text -/

namespace Cursor

variable (front : List Char)

/-- The place in a text that something stands in front of. -/
def shift (c : Cursor text) : Cursor (front ++ text) where
  offset := utf8Length front + c.offset
  ahead := c.ahead
  split := by
    obtain ⟨behind, htext, hoffset⟩ := c.split
    exact ⟨front ++ behind, by rw [List.append_assoc, htext], by rw [utf8Length_append, hoffset]⟩

@[simp]
theorem offset_shift (c : Cursor text) : (c.shift front).offset = utf8Length front + c.offset :=
  rfl

@[simp]
theorem ahead_shift (c : Cursor text) : (c.shift front).ahead = c.ahead :=
  rfl

theorem shift_injective : Function.Injective (shift front : Cursor text → Cursor (front ++ text)) :=
  fun _ _ heq => ext_offset (Nat.add_left_cancel (congrArg offset heq))

@[simp]
theorem shift_lt_shift_iff {c d : Cursor text} : c.shift front < d.shift front ↔ c < d :=
  Nat.add_lt_add_iff_left

/-- The places that are not in front of a text are places of the text. -/
theorem exists_shift_eq {d : Cursor (front ++ text)} (hle : utf8Length front ≤ d.offset) :
    ∃ c : Cursor text, c.shift front = d := by
  obtain ⟨between, hahead, -⟩ := ahead_eq_append (c := (start text).shift front) (d := d) hle
  obtain ⟨c, hc⟩ := exists_ahead_eq (c := start text) hahead
  exact ⟨c, ext_ahead hc⟩

theorem next?_shift (c : Cursor text) :
    (c.shift front).next? = c.next?.map fun (x, d) => (x, d.shift front) := by
  cases hnext : c.next? with
  | none =>
    have hend : c.AtEnd := next?_eq_none_iff.mp hnext
    exact next?_eq_none_iff.mpr hend
  | some step =>
    have hahead : c.ahead = step.1 :: step.2.ahead := next?_eq_some_iff.mp hnext
    exact next?_eq_some_iff.mpr hahead

theorem advance?_shift (c : Cursor text) (word : List Char) :
    (c.shift front).advance? word = (c.advance? word).map (shift front) := by
  induction word generalizing c with
  | nil => rfl
  | cons x rest ih =>
    rw [advance?, advance?, next?_shift]
    cases c.next? with
    | none => rfl
    | some step =>
      obtain ⟨y, d⟩ := step
      simp only [Option.map_some]
      split
      · exact ih d
      · rfl

theorem at?_shift (text : List Char) (offset : Nat) :
    at? (front ++ text) (utf8Length front + offset) = (at? text offset).map (shift front) := by
  cases hplace : at? text offset with
  | some c =>
    obtain rfl := at?_eq_some_iff.mp hplace
    exact at?_offset (c.shift front)
  | none =>
    apply Option.eq_none_iff_forall_ne_some.mpr
    intro d hd
    have hoffset := at?_eq_some_iff.mp hd
    obtain ⟨c, rfl⟩ := exists_shift_eq front (d := d) (hoffset ▸ Nat.le_add_right _ _)
    have hsome := at?_eq_some_iff.mpr (Nat.add_left_cancel hoffset)
    simp [hplace] at hsome

end Cursor

/-! ### Steps behind another text -/

variable (front : List Char)

namespace Fragment

theorem afterOneOf?_shift (cls : CharClass) (c : Cursor text) :
    afterOneOf? cls (c.shift front) = (afterOneOf? cls c).map (·.shift front) := by
  rw [afterOneOf?, afterOneOf?, Cursor.next?_shift]
  cases c.next? with
  | none => rfl
  | some step =>
    simp only [Option.map_some]
    split <;> rfl

mutual

theorem ends_shift (c : Cursor text) (fragment : Fragment) :
    fragment.ends (c.shift front) = (fragment.ends c).map (·.shift front) := by
  match fragment with
  | literal sequence => rw [ends, ends, Cursor.advance?_shift, Option.toList_map]
  | oneOf cls => rw [ends, ends, afterOneOf?_shift, Option.toList_map]
  | choice choices =>
    rw [ends, ends]
    exact endsOfAll_shift c choices

theorem endsOfAll_shift (c : Cursor text) (fragments : List Fragment) :
    endsOfAll (c.shift front) fragments = (endsOfAll c fragments).map (·.shift front) := by
  match fragments with
  | [] => rfl
  | fragment :: rest =>
    rw [endsOfAll, endsOfAll, ends_shift c fragment, endsOfAll_shift c rest, List.map_append]

end

end Fragment

theorem Steps.ends_next_shift (test : Char → Bool) (c : Cursor text) :
    (next test).ends (c.shift front) =
      ((next test).ends c).map (·.shift front) := by
  simp only [next, Cursor.next?_shift]
  cases c.next? with
  | none => rfl
  | some step =>
    simp only [Option.map_some]
    split <;> rfl

/-- What is kept apart by a map is dropped as a repeat after it just where it was before. -/
theorem eraseDups_map_of_injective {α β : Type} [DecidableEq α] [DecidableEq β] {f : α → β}
    (hf : Function.Injective f) (list : List α) :
    (list.map f).eraseDups = list.eraseDups.map f := by
  match list with
  | [] => rfl
  | a :: rest =>
    have hfilter : (rest.map f).filter (fun b => !b == f a) =
        (rest.filter fun b => !b == a).map f := by
      rw [List.filter_map]
      congr 2
      funext b
      rw [Function.comp_apply, Bool.eq_iff_iff]
      simp [hf.eq_iff]
    rw [List.map_cons, List.eraseDups_cons, List.eraseDups_cons, hfilter,
      eraseDups_map_of_injective hf, List.map_cons]
termination_by list.length
decreasing_by
  have hshorter := List.length_filter_le (fun b => !b == a) rest
  simp only [List.length_cons]
  omega

namespace Repetition.Loop

variable {front} {quantifier : Quantifier} {step : Cursor text → List (Cursor text)}
  {shifted : Cursor (front ++ text) → List (Cursor (front ++ text))}

theorem candidates_shift (hstep : ∀ c, shifted (c.shift front) = (step c).map (·.shift front))
    (count : Nat) (c : Cursor text) :
    candidates ⟨quantifier, shifted⟩ count (c.shift front) =
      (candidates ⟨quantifier, step⟩ count c).map (·.shift front) := by
  have hallows : allows ⟨quantifier, shifted⟩ count = allows ⟨quantifier, step⟩ count := rfl
  rw [candidates, candidates, hallows]
  split
  · simp only [hstep, List.filter_map, Function.comp_def, Cursor.shift_lt_shift_iff]
    exact eraseDups_map_of_injective (Cursor.shift_injective front) _
  · rfl

theorem order_shift (hstep : ∀ c, shifted (c.shift front) = (step c).map (·.shift front))
    (count : Nat) (c : Cursor text) :
    order ⟨quantifier, shifted⟩ count (c.shift front) =
      (order ⟨quantifier, step⟩ count c).map (·.shift front) := by
  -- The candidates are the same places, and each of them comes further or is still needed.
  have hrest : ∀ d ∈ candidates ⟨quantifier, step⟩ count c,
      order ⟨quantifier, shifted⟩ (count + 1) (d.shift front) =
        (order ⟨quantifier, step⟩ (count + 1) d).map (·.shift front) := by
    intro d hmem
    have hprogress := lt_of_mem_candidates _ hmem
    exact order_shift hstep (count + 1) d
  rw [order_eq, order_eq, candidates_shift hstep, List.map_append, List.flatMap_map,
    List.map_flatMap, List.flatMap_congr hrest]
  split <;> rfl
termination_by (quantifier.least - count, c.ahead.length)
decreasing_by exact progress hprogress

end Repetition.Loop

/-! ### Trees behind another text -/

namespace Node

/-- Whether a tree asks somewhere for the start of the text. -/
def hasTextStart : Node → Bool
  | seq first second => first.hasTextStart || second.hasTextStart
  | alt first second => first.hasTextStart || second.hasTextStart
  | iterate body _ => body.hasTextStart
  | look body _ => body.hasTextStart
  | textStart => true
  | _ => false

/-- A tree that does not ask for the start reaches from a place what it reaches there without the
text in front, in the same order. -/
theorem reached_shift (node : Node) (hnode : node.hasTextStart = false) (c : Cursor text) :
    node.reached (c.shift front) = (node.reached c).map (·.shift front) := by
  induction node generalizing c with
  | empty =>
    rw [(shows_empty _).reached_eq, (shows_empty c).reached_eq]
    rfl
  | char expected =>
    rw [(shows_char expected _).reached_eq, (shows_char expected c).reached_eq]
    exact Steps.ends_next_shift front _ c
  | anyChar =>
    rw [(shows_anyChar _).reached_eq, (shows_anyChar c).reached_eq]
    exact Steps.ends_next_shift front _ c
  | set chars =>
    rw [(shows_set chars _).reached_eq, (shows_set chars c).reached_eq]
    exact Steps.ends_next_shift front _ c
  | strings fragment =>
    rw [(shows_strings fragment _).reached_eq, (shows_strings fragment c).reached_eq]
    exact fragment.ends_shift front c
  | seq first second ihfirst ihsecond =>
    obtain ⟨hfirst, hsecond⟩ := Bool.or_eq_false_iff.mp hnode
    rw [reached_seq, reached_seq, ihfirst hfirst, List.flatMap_map, List.map_flatMap]
    simp only [ihsecond hsecond]
  | alt first second ihfirst ihsecond =>
    obtain ⟨hfirst, hsecond⟩ := Bool.or_eq_false_iff.mp hnode
    rw [reached_alt, reached_alt, ihfirst hfirst, ihsecond hsecond, List.map_append]
  | iterate body quantifier ih =>
    rw [(shows_iterate body quantifier _).reached_eq, (shows_iterate body quantifier c).reached_eq]
    exact Repetition.Loop.order_shift (ih hnode) 0 c
  | look body negated ih =>
    rw [reached_look, reached_look, ih hnode, List.isEmpty_map]
    split <;> rfl
  | textStart => cases hnode
  | textEnd =>
    rw [(shows_textEnd _).reached_eq, (shows_textEnd c).reached_eq]
    simp only [ends, steps, Steps.stay, Cursor.offset_shift, utf8Length_append,
      Nat.add_left_cancel_iff]
    split <;> rfl

end Node

/-! ### Patterns behind another text -/

namespace Pattern

variable {pattern : Pattern} {front}

theorem matchAt_append (hroot : pattern.root.hasTextStart = false) (text : List Char)
    (offset : Nat) :
    pattern.matchAt (front ++ text) (utf8Length front + offset) =
      (pattern.matchAt text offset).map (utf8Length front + ·) := by
  cases hplace : Cursor.at? text offset with
  | some c =>
    obtain rfl := Cursor.at?_eq_some_iff.mp hplace
    rw [← Cursor.offset_shift, matchAt_eq_head?, matchAt_eq_head?,
      Node.reached_shift front pattern.root hroot, List.head?_map, Option.map_map, Option.map_map]
    rfl
  | none =>
    rw [matchAt, matchAt, Cursor.at?_shift, hplace]
    rfl

/-- What lies behind the place where a match starts has no influence on it, unless the tree asks for
the start of the text: with any text in front the same places are reached in the same order, and the
match has the same end. -/
theorem matching_is_local (hroot : pattern.root.hasTextStart = false) (front text : List Char) :
    (∀ offset stop,
      pattern.matchAt (front ++ text) (utf8Length front + offset) =
          some (utf8Length front + stop) ↔
        pattern.matchAt text offset = some stop) ∧
    (∀ offset, pattern.matchAt (front ++ text) (utf8Length front + offset) = none ↔
      pattern.matchAt text offset = none) ∧
    ∀ c : Cursor text,
      pattern.root.reached (c.shift front) = (pattern.root.reached c).map (·.shift front) := by
  refine ⟨?_, ?_, Node.reached_shift front pattern.root hroot⟩
  · intro offset stop
    rw [matchAt_append hroot, Option.map_eq_some_iff]
    simp only [Nat.add_left_cancel_iff, exists_eq_right]
  · intro offset
    rw [matchAt_append hroot, Option.map_eq_none_iff]

theorem matching_is_local_look :
    (Node.seq (.char 'a') (.look (.char 'b') false)).hasTextStart = false ∧
      matchAt ⟨['a', '(', '?', '=', 'b', ')'], .seq (.char 'a') (.look (.char 'b') false)⟩
        (['é'] ++ ['a', 'b']) (2 + 0) = some (2 + 1) := by
  have hmatch : matchAt ⟨['a', '(', '?', '=', 'b', ')'],
      .seq (.char 'a') (.look (.char 'b') false)⟩ ['a', 'b'] 0 = some 1 :=
    matchAt_eq_head? _ (Cursor.start ['a', 'b'])
  exact ⟨rfl, ((matching_is_local rfl ['é'] ['a', 'b']).1 0 1).mpr hmatch⟩

end Pattern

end EmojiPatterns
