import EmojiPatterns.Proofs.MemberEnds

/-!
# The ends of leaves

All ends of a fragment can be gathered, or the preferred one looked for, which is over as soon as
something matches.  However choices are nested, both go through the same leaves from left to right:
the one gives the end of every leaf that matches, as often as a leaf occurs, and the other the first
of these.  Main statement: `Fragment.ends_agree_on_leaves`.
-/

namespace EmojiPatterns

variable {text : List Char}

/-- What a fragment consists of where it is no choice. -/
inductive Leaf where
  | literal (sequence : Sequence)
  | oneOf (cls : CharClass)

/-- A leaf as a fragment by itself. -/
def Leaf.fragment : Leaf → Fragment
  | literal sequence => .literal sequence
  | oneOf cls => .oneOf cls

/-- A leaf takes a word, and every word has a character. -/
theorem Fragment.Takes.ne_nil {fragment : Fragment} {word : List Char}
    (htakes : fragment.Takes word) : word ≠ [] := by
  induction htakes with
  | literal sequence => exact sequence.nonempty
  | oneOf => exact List.cons_ne_nil _ _
  | choice _ _ ih => exact ih

namespace Leaf

/-- The place behind what a leaf takes. -/
def end? (c : Cursor text) : Leaf → Option (Cursor text)
  | literal sequence => c.advance? sequence.chars
  | oneOf cls => Fragment.afterOneOf? cls c

/-- The byte offset behind what a leaf takes from an offset of a text on. -/
def stop? (text : List Char) (offset : Nat) (leaf : Leaf) : Option Nat :=
  (Cursor.at? text offset).bind fun c => (leaf.end? c).map (·.offset)

theorem ends_fragment (leaf : Leaf) (c : Cursor text) :
    leaf.fragment.ends c = (leaf.end? c).toList := by
  cases leaf <;> rw [fragment, Fragment.ends, end?]

theorem end?_eq_some_iff {leaf : Leaf} {c d : Cursor text} :
    leaf.end? c = some d ↔ ∃ word, leaf.fragment.Takes word ∧ c.ahead = word ++ d.ahead := by
  rw [← Option.mem_toList, ← ends_fragment, Fragment.mem_ends_iff]

theorem stop?_offset (leaf : Leaf) (c : Cursor text) :
    leaf.stop? text c.offset = (leaf.end? c).map (·.offset) := by
  rw [stop?, Cursor.at?_offset, Option.bind_some]

/-- A leaf ends behind a word of its own that stands at the offset. -/
theorem stop?_eq_some_iff {leaf : Leaf} {offset stop : Nat} :
    leaf.stop? text offset = some stop ↔
      ∃ word, leaf.fragment.Takes word ∧ StandsAt word text offset ∧
        stop = offset + utf8Length word := by
  constructor
  · intro hstop
    obtain ⟨c, hplace, hend⟩ := Option.bind_eq_some_iff.mp hstop
    obtain rfl := Cursor.at?_eq_some_iff.mp hplace
    obtain ⟨d, hd, rfl⟩ := Option.map_eq_some_iff.mp hend
    obtain ⟨word, htakes, hahead⟩ := end?_eq_some_iff.mp hd
    exact ⟨word, htakes, standsAt_offset_iff.mpr ⟨d, hahead⟩, Cursor.offset_eq_of_ahead_eq hahead⟩
  · rintro ⟨word, htakes, hstands, rfl⟩
    obtain ⟨c, d, rfl, hahead⟩ := standsAt_iff.mp hstands
    rw [stop?_offset, end?_eq_some_iff.mpr ⟨word, htakes, hahead⟩, Option.map_some,
      Cursor.offset_eq_of_ahead_eq hahead]

/-- A leaf ends at a boundary between characters, and not where it starts. -/
theorem bounds_of_stop? {leaf : Leaf} {offset stop : Nat}
    (hstop : leaf.stop? text offset = some stop) :
    offset < stop ∧ (cut? text stop).isSome = true := by
  obtain ⟨word, htakes, hstands, rfl⟩ := stop?_eq_some_iff.mp hstop
  obtain ⟨c, d, rfl, hahead⟩ := standsAt_iff.mp hstands
  have hpos := Nat.pos_of_ne_zero (mt utf8Length_eq_zero_iff.mp htakes.ne_nil)
  exact ⟨Nat.lt_add_of_pos_right hpos,
    Cursor.offset_eq_of_ahead_eq hahead ▸ d.isSome_cut?_offset⟩

end Leaf

namespace Fragment

/-! ### From left to right -/

mutual

/-- The leaves of a fragment from left to right. -/
def leaves : Fragment → List Leaf
  | literal sequence => [.literal sequence]
  | oneOf cls => [.oneOf cls]
  | choice choices => leavesOfAll choices

/-- The leaves of several fragments, one after another. -/
def leavesOfAll : List Fragment → List Leaf
  | [] => []
  | fragment :: rest => fragment.leaves ++ leavesOfAll rest

end

mutual

theorem ends_eq_filterMap_leaves (c : Cursor text) (fragment : Fragment) :
    fragment.ends c = fragment.leaves.filterMap (·.end? c) := by
  match fragment with
  | literal sequence =>
    rw [ends, leaves, List.filterMap_cons, List.filterMap_nil, Leaf.end?]
    cases c.advance? sequence.chars <;> rfl
  | oneOf cls =>
    rw [ends, leaves, List.filterMap_cons, List.filterMap_nil, Leaf.end?]
    cases afterOneOf? cls c <;> rfl
  | choice choices =>
    rw [ends, leaves]
    exact endsOfAll_eq_filterMap_leavesOfAll c choices

theorem endsOfAll_eq_filterMap_leavesOfAll (c : Cursor text) (fragments : List Fragment) :
    endsOfAll c fragments = (leavesOfAll fragments).filterMap (·.end? c) := by
  match fragments with
  | [] => rfl
  | fragment :: rest =>
    rw [endsOfAll, leavesOfAll, List.filterMap_append, ends_eq_filterMap_leaves c fragment,
      endsOfAll_eq_filterMap_leavesOfAll c rest]

end

theorem matchEnds_eq_filterMap_leaves (fragment : Fragment) (text : List Char) (offset : Nat) :
    fragment.matchEnds text offset = fragment.leaves.filterMap (Leaf.stop? text offset) := by
  rw [matchEnds]
  cases hplace : Cursor.at? text offset with
  | some c =>
    obtain rfl := Cursor.at?_eq_some_iff.mp hplace
    dsimp only
    rw [ends_eq_filterMap_leaves, List.map_filterMap]
    exact List.filterMap_congr fun leaf _ => (leaf.stop?_offset c).symm
  | none =>
    refine (List.filterMap_eq_nil_iff.mpr fun leaf _ => ?_).symm
    rw [Leaf.stop?, hplace, Option.bind_none]

/-! ### The first end at a byte offset -/

mutual

/-- The byte offset where the preferred match from one ends.  Each alternative cuts the text anew,
and behind one that matches no other is looked at. -/
def firstStop? (text : List Char) (offset : Nat) : Fragment → Option Nat
  | literal sequence =>
    match cut? text offset with
    | some (_, rest) =>
      if sequence.utf8Bytes <+: utf8Bytes rest then some (offset + sequence.utf8Length) else none
    | none => none
  | oneOf cls =>
    match cut? text offset with
    | some (_, x :: _) => if cls.contains x then some (offset + x.utf8Size) else none
    | _ => none
  | choice choices =>
    match cut? text offset with
    | some _ => firstStopOfAll? text offset choices
    | none => none

/-- The byte offset where a match of the first of several fragments that match ends. -/
def firstStopOfAll? (text : List Char) (offset : Nat) : List Fragment → Option Nat
  | [] => none
  | fragment :: rest =>
    match fragment.firstStop? text offset with
    | some stop => some stop
    | none => firstStopOfAll? text offset rest

end

mutual

theorem firstStop?_offset (c : Cursor text) (fragment : Fragment) :
    fragment.firstStop? text c.offset = (fragment.firstEnd? c).map (·.offset) := by
  obtain ⟨behind, hcut⟩ := c.exists_cut?_eq_some
  match fragment with
  | literal sequence => simp only [firstStop?, hcut, firstEnd?, map_offset_advance?]
  | oneOf cls =>
    simp only [firstStop?, hcut, firstEnd?, map_offset_afterOneOf?]
    cases c.ahead <;> rfl
  | choice choices =>
    simp only [firstStop?, hcut, firstEnd?]
    exact firstStopOfAll?_offset c choices

theorem firstStopOfAll?_offset (c : Cursor text) (fragments : List Fragment) :
    firstStopOfAll? text c.offset fragments = (firstEndOfAll? c fragments).map (·.offset) := by
  match fragments with
  | [] => rfl
  | fragment :: rest =>
    rw [firstStopOfAll?, firstEndOfAll?, firstStop?_offset c fragment,
      firstStopOfAll?_offset c rest]
    cases fragment.firstEnd? c <;> rfl

end

/-- Looking for the preferred end at an offset finds the first of those that are gathered there. -/
theorem firstStop?_eq_head?_matchEnds (fragment : Fragment) (text : List Char) (offset : Nat) :
    fragment.firstStop? text offset = (fragment.matchEnds text offset).head? := by
  rw [matchEnds]
  cases hplace : Cursor.at? text offset with
  | some c =>
    obtain rfl := Cursor.at?_eq_some_iff.mp hplace
    dsimp only
    rw [firstStop?_offset, firstEnd?_eq_head?_ends, List.head?_map]
  | none =>
    have hcut := Cursor.at?_eq_none_iff.mp hplace
    cases fragment <;> simp [firstStop?, hcut]

theorem matchPrefix?_eq_firstStop? (fragment : Fragment) (text : List Char) :
    fragment.matchPrefix? text = fragment.firstStop? text 0 :=
  (firstStop?_offset (Cursor.start text) fragment).symm

/-- What is gathered at an offset are the ends of the leaves from left to right, as often as they
occur: for each leaf that has a word there the place behind it, which is a boundary further on.  The
preferred end is the first of these, and at the start of a text it is the length of the match. -/
theorem ends_agree_on_leaves (fragment : Fragment) (text : List Char) :
    (∀ offset,
      (∀ out, (fragment.pushEnds text offset out).toList =
        out.toList ++ fragment.leaves.filterMap (Leaf.stop? text offset)) ∧
      fragment.firstStop? text offset =
        (fragment.leaves.filterMap (Leaf.stop? text offset)).head? ∧
      (∀ (leaf : Leaf) (stop : Nat), leaf.stop? text offset = some stop ↔
        ∃ word, leaf.fragment.Takes word ∧ StandsAt word text offset ∧
          stop = offset + utf8Length word) ∧
      ∀ stop ∈ fragment.leaves.filterMap (Leaf.stop? text offset),
        offset < stop ∧ (cut? text stop).isSome = true) ∧
    ∀ out : Array Nat,
      fragment.matchPrefix? text =
        ((fragment.pushEnds text 0 out).toList.drop out.size).head? ∧
      (fragment.matchPrefix? text = none ↔ fragment.pushEnds text 0 out = out) := by
  constructor
  · intro offset
    rw [firstStop?_eq_head?_matchEnds, matchEnds_eq_filterMap_leaves]
    refine ⟨?_, rfl, fun _ _ => Leaf.stop?_eq_some_iff, ?_⟩
    · intro out
      rw [toList_pushEnds, matchEnds_eq_filterMap_leaves]
    · intro stop hmem
      obtain ⟨leaf, -, hstop⟩ := List.mem_filterMap.mp hmem
      exact Leaf.bounds_of_stop? hstop
  · intro out
    have hpushed := toList_pushEnds fragment text 0 out
    rw [matchPrefix?_eq_firstStop?, firstStop?_eq_head?_matchEnds]
    constructor
    · rw [hpushed, ← Array.length_toList, List.drop_left]
    · rw [List.head?_eq_none_iff, ← Array.toList_inj, hpushed, List.append_right_eq_self]

/-- Two leaves that match the first of two characters, at different depths, with one between them
that matches both. -/
theorem ends_agree_on_leaves_nested :
    ((choice [choice [choice [], oneOf ⟨[⟨'é', 'é'⟩]⟩], literal ⟨['é', 'a'], nofun⟩,
        literal (.singleton 'é')]).pushEnds ['é', 'a'] 0 #[7]).toList = [7, 2, 3, 2] ∧
      0 < 3 ∧ (cut? ['é', 'a'] 3).isSome = true := by
  obtain ⟨hends, -, -, hbounds⟩ := (ends_agree_on_leaves
    (choice [choice [choice [], oneOf ⟨[⟨'é', 'é'⟩]⟩], literal ⟨['é', 'a'], nofun⟩,
      literal (.singleton 'é')]) ['é', 'a']).1 0
  exact ⟨(hends #[7]).trans (by decide +kernel), hbounds 3 (by decide +kernel)⟩

end Fragment

end EmojiPatterns
