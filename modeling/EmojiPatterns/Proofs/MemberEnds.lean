import EmojiPatterns.Proofs.Boundaries
import EmojiPatterns.Proofs.ByteOrder
import EmojiPatterns.Proofs.MemberSearch

/-!
# The ends that a set offers

A host that backtracks asks a fragment for all its ends at a byte offset and tries them in turn.
They can be gathered in one list that is handed from alternative to alternative, each of which cuts
the text anew at the offset and compares bytes.  Of a set this gives one end for each member that
stands there, the longest member first, although members are put in order by their characters and
ends are counted in bytes.  Main statements: `Fragment.toList_pushEnds`,
`StringSet.matching_members_longest_first`.
-/

namespace EmojiPatterns

variable {text : List Char}

/-! ### Gathering ends at a byte offset -/

namespace Cursor

/-- A text starts with the words that lie ahead of its start. -/
theorem exists_ahead_start_iff {word : List Char} :
    (∃ d : Cursor text, (start text).ahead = word ++ d.ahead) ↔ word <+: text := by
  constructor
  · rintro ⟨d, hahead⟩
    exact ⟨d.ahead, hahead.symm⟩
  · rintro ⟨rest, hrest⟩
    obtain ⟨d, rfl⟩ := exists_ahead_eq (c := start text) hrest.symm
    exact ⟨d, hrest.symm⟩

theorem offset_of_ahead_start {d : Cursor text} {word : List Char}
    (hahead : (start text).ahead = word ++ d.ahead) : d.offset = utf8Length word :=
  (offset_eq_of_ahead_eq hahead).trans (Nat.zero_add _)

/-- Of two words that lie ahead of a place the longer one leads further. -/
theorem lt_of_length_le {c d e : Cursor text} {long short : List Char}
    (hlong : c.ahead = long ++ d.ahead) (hshort : c.ahead = short ++ e.ahead)
    (hlength : short.length ≤ long.length) (hne : long ≠ short) : e < d := by
  have hstarts : short <+: long := by
    apply List.prefix_of_prefix_length_le _ _ hlength
    · exact c.ahead
    · exact ⟨e.ahead, hshort.symm⟩
    · exact ⟨d.ahead, hlong.symm⟩
  obtain ⟨rest, rfl⟩ := hstarts
  have hahead : e.ahead = rest ++ d.ahead := by
    rw [hshort, List.append_assoc] at hlong
    exact List.append_cancel_left hlong
  apply Cursor.lt_of_le_of_ne (le_of_ahead_eq hahead)
  rintro rfl
  have hnil : rest = [] := List.append_left_eq_self.mp hahead.symm
  exact hne (by rw [hnil, List.append_nil])

end Cursor

namespace Fragment

mutual

/-- Adds to a list of byte offsets those where a match from one of them can end. -/
def pushEnds (text : List Char) (offset : Nat) (out : Array Nat) : Fragment → Array Nat
  | literal sequence =>
    match cut? text offset with
    | some (_, rest) =>
      if sequence.utf8Bytes <+: utf8Bytes rest then out.push (offset + sequence.utf8Length) else out
    | none => out
  | oneOf cls =>
    match cut? text offset with
    | some (_, x :: _) => if cls.contains x then out.push (offset + x.utf8Size) else out
    | _ => out
  | choice choices =>
    match cut? text offset with
    | some _ => pushEndsOfAll text offset out choices
    | none => out

/-- Adds the ends of several fragments, one after another. -/
def pushEndsOfAll (text : List Char) (offset : Nat) (out : Array Nat) : List Fragment → Array Nat
  | [] => out
  | fragment :: rest => pushEndsOfAll text offset (fragment.pushEnds text offset out) rest

end

/-- A sequence that lies ahead of a place is told by its bytes. -/
theorem map_offset_advance? (c : Cursor text) (sequence : Sequence) :
    (c.advance? sequence.chars).map (·.offset) =
      if sequence.utf8Bytes <+: utf8Bytes c.ahead then some (c.offset + sequence.utf8Length)
      else none := by
  simp only [Sequence.utf8Bytes, utf8Bytes_prefix_iff]
  split
  · next hstarts =>
    obtain ⟨rest, hahead⟩ := hstarts
    obtain ⟨d, rfl⟩ := Cursor.exists_ahead_eq hahead.symm
    rw [Cursor.advance?_eq_some_iff.mpr hahead.symm]
    exact congrArg some (Cursor.offset_eq_of_ahead_eq hahead.symm)
  · next hstarts =>
    rw [Option.map_eq_none_iff, Option.eq_none_iff_forall_ne_some]
    intro d hsome
    exact hstarts ⟨d.ahead, (Cursor.advance?_eq_some_iff.mp hsome).symm⟩

theorem map_offset_afterOneOf? (c : Cursor text) (cls : CharClass) :
    (afterOneOf? cls c).map (·.offset) =
      match c.ahead with
      | x :: _ => if cls.contains x then some (c.offset + x.utf8Size) else none
      | [] => none := by
  rw [afterOneOf?]
  cases hnext : c.next? with
  | none => rw [show c.ahead = [] from Cursor.next?_eq_none_iff.mp hnext, Option.map_none]
  | some step =>
    obtain ⟨x, d⟩ := step
    have hahead : c.ahead = [x] ++ d.ahead := Cursor.next?_eq_some_iff.mp hnext
    simp only [hahead, List.singleton_append]
    split
    · exact congrArg some (Cursor.offset_eq_of_ahead_eq hahead)
    · rfl

mutual

theorem toList_pushEnds_offset (c : Cursor text) (out : Array Nat) (fragment : Fragment) :
    (fragment.pushEnds text c.offset out).toList =
      out.toList ++ (fragment.ends c).map (·.offset) := by
  obtain ⟨behind, hcut⟩ := c.exists_cut?_eq_some
  match fragment with
  | literal sequence =>
    simp only [pushEnds, hcut, ends, ← Option.toList_map, map_offset_advance?]
    split <;> simp
  | oneOf cls =>
    simp only [pushEnds, hcut, ends, ← Option.toList_map, map_offset_afterOneOf?]
    cases c.ahead with
    | nil => simp
    | cons x rest =>
      dsimp only
      split <;> simp
  | choice choices =>
    simp only [pushEnds, hcut, ends]
    exact toList_pushEndsOfAll_offset c out choices

theorem toList_pushEndsOfAll_offset (c : Cursor text) (out : Array Nat)
    (fragments : List Fragment) :
    (pushEndsOfAll text c.offset out fragments).toList =
      out.toList ++ (endsOfAll c fragments).map (·.offset) := by
  match fragments with
  | [] => simp [pushEndsOfAll, endsOfAll]
  | fragment :: rest =>
    rw [pushEndsOfAll, toList_pushEndsOfAll_offset c _ rest, toList_pushEnds_offset c out fragment,
      endsOfAll, List.map_append, List.append_assoc]

end

/-- What is gathered at an offset keeps what was there and goes on with the ends from there. -/
theorem toList_pushEnds (fragment : Fragment) (text : List Char) (offset : Nat) (out : Array Nat) :
    (fragment.pushEnds text offset out).toList = out.toList ++ fragment.matchEnds text offset := by
  rw [matchEnds]
  cases hplace : Cursor.at? text offset with
  | some c =>
    rw [← Cursor.at?_eq_some_iff.mp hplace]
    exact toList_pushEnds_offset c out fragment
  | none =>
    have hcut := Cursor.at?_eq_none_iff.mp hplace
    cases fragment <;> simp [pushEnds, hcut]

/-- Inside of a character there is nothing to add. -/
example (word : Sequence) :
    ((choice [.literal word]).pushEnds ['é'] 1 #[7]).toList = [7] := rfl

mutual

/-- Looking for the preferred end alone finds the first of all. -/
theorem firstEnd?_eq_head?_ends (c : Cursor text) (fragment : Fragment) :
    fragment.firstEnd? c = (fragment.ends c).head? := by
  match fragment with
  | literal sequence => simp [firstEnd?, ends]
  | oneOf cls => simp [firstEnd?, ends]
  | choice choices =>
    rw [firstEnd?, ends]
    exact firstEndOfAll?_eq_head?_endsOfAll c choices

theorem firstEndOfAll?_eq_head?_endsOfAll (c : Cursor text) (fragments : List Fragment) :
    firstEndOfAll? c fragments = (endsOfAll c fragments).head? := by
  match fragments with
  | [] => rfl
  | fragment :: rest =>
    rw [firstEndOfAll?, firstEnd?_eq_head?_ends c fragment,
      firstEndOfAll?_eq_head?_endsOfAll c rest, endsOfAll, List.head?_append]
    cases (fragment.ends c).head? <;> rfl

end

end Fragment

/-! ### The ends of members -/

/-- Two members of one length that a text starts with are the same. -/
theorem Sequence.eq_of_starts {left right : Sequence} (hleft : left.chars <+: text)
    (hright : right.chars <+: text) (hlength : left.length = right.length) : left = right :=
  Sequence.ext
    ((List.prefix_of_prefix_length_le hleft hright hlength.le).eq_of_length hlength)

namespace StringSet

variable (set : StringSet) (merge : Bool)

/-- The members are tried each once, and none before a longer one. -/
theorem pairwise_tried :
    set.tried.Pairwise fun left right => right.length ≤ left.length ∧ left ≠ right := by
  have hsorted : set.tried.Pairwise fun left right => left.precedes right = true :=
    Sequence.pairwise_precedes_mergeSort _
  have hnodup : set.tried.Nodup := (List.mergeSort_perm _ _).nodup_iff.mpr set.nodup_sequences
  exact (hsorted.imp Sequence.length_le_of_precedes).and hnodup

/-- The ends come nearer and nearer. -/
theorem pairwise_ends_fragment (c : Cursor text) :
    ((set.fragment merge).ends c).Pairwise fun d e => e < d := by
  rw [ends_fragment, List.pairwise_filterMap]
  apply set.pairwise_tried.imp
  rintro long short ⟨hlength, hne⟩ d hlong e hshort
  rw [Cursor.advance?_eq_some_iff] at hlong hshort
  exact Cursor.lt_of_length_le hlong hshort hlength fun heq => hne (Sequence.ext heq)

/-- There is an end for each member that stands at the offset. -/
theorem mem_matchEnds_iff {offset stop : Nat} :
    stop ∈ (set.fragment merge).matchEnds text offset ↔
      ∃ sequence ∈ set.sequences, StandsAt sequence.chars text offset ∧
        stop = offset + sequence.utf8Length := by
  rw [Fragment.matchEnds]
  cases hplace : Cursor.at? text offset with
  | some c =>
    obtain rfl := Cursor.at?_eq_some_iff.mp hplace
    simp only [List.mem_map, mem_ends_fragment_iff, standsAt_offset_iff]
    constructor
    · rintro ⟨d, ⟨sequence, hmem, hahead⟩, rfl⟩
      exact ⟨sequence, hmem, ⟨d, hahead⟩, Cursor.offset_eq_of_ahead_eq hahead⟩
    · rintro ⟨sequence, hmem, ⟨d, hahead⟩, rfl⟩
      exact ⟨d, ⟨sequence, hmem, hahead⟩, Cursor.offset_eq_of_ahead_eq hahead⟩
  | none =>
    apply iff_of_false List.not_mem_nil
    rintro ⟨sequence, -, hstands, -⟩
    obtain ⟨c, -, hoffset, -⟩ := standsAt_iff.mp hstands
    simp [Cursor.at?_eq_some_iff.mpr hoffset] at hplace

theorem pairwise_matchEnds (text : List Char) (offset : Nat) :
    ((set.fragment merge).matchEnds text offset).Pairwise (· > ·) := by
  rw [Fragment.matchEnds]
  cases Cursor.at? text offset with
  | some c => exact List.pairwise_map.mpr (set.pairwise_ends_fragment merge c)
  | none => exact .nil

/-- The preferred match of a text's start takes the longest member that the text starts with. -/
theorem matchPrefix?_eq_some_iff {length : Nat} :
    (set.fragment merge).matchPrefix? text = some length ↔
      ∃ sequence ∈ set.sequences, sequence.chars <+: text ∧ sequence.utf8Length = length ∧
        ∀ other ∈ set.sequences, other.chars <+: text → other.length ≤ sequence.length := by
  rw [Fragment.matchPrefix?, Fragment.firstEnd?_eq_head?_ends, Option.map_eq_some_iff]
  constructor
  · rintro ⟨d, hhead, rfl⟩
    obtain ⟨sequence, hmem, hahead, hlongest⟩ := set.longest_of_head?_ends merge hhead
    refine ⟨sequence, hmem, Cursor.exists_ahead_start_iff.mp ⟨d, hahead⟩,
      (Cursor.offset_of_ahead_start hahead).symm, ?_⟩
    rintro other hother ⟨rest, hrest⟩
    exact hlongest other hother rest hrest.symm
  · rintro ⟨sequence, hmem, hstarts, rfl, hlongest⟩
    obtain ⟨d, hahead⟩ := Cursor.exists_ahead_start_iff.mpr hstarts
    have hend := (set.mem_ends_fragment_iff merge).mpr ⟨sequence, hmem, hahead⟩
    obtain ⟨e, hhead⟩ := Option.isSome_iff_exists.mp
      (List.isSome_head?.mpr (List.ne_nil_of_mem hend))
    obtain ⟨other, hother, hrest, hleast⟩ := set.longest_of_head?_ends merge hhead
    have hotherstarts : other.chars <+: text := Cursor.exists_ahead_start_iff.mp ⟨e, hrest⟩
    have hlength : other.length = sequence.length :=
      Nat.le_antisymm (hlongest other hother hotherstarts) (hleast sequence hmem _ hahead)
    obtain rfl := Sequence.eq_of_starts hotherstarts hstarts hlength
    exact ⟨e, hhead, Cursor.offset_of_ahead_start hrest⟩

theorem matchPrefix?_eq_none_iff :
    (set.fragment merge).matchPrefix? text = none ↔
      ∀ sequence ∈ set.sequences, ¬ sequence.chars <+: text := by
  rw [Fragment.matchPrefix?, Fragment.firstEnd?_eq_head?_ends, Option.map_eq_none_iff,
    List.head?_eq_none_iff, List.eq_nil_iff_forall_not_mem]
  simp only [mem_ends_fragment_iff]
  constructor
  · intro hnone sequence hmem hstarts
    obtain ⟨d, hahead⟩ := Cursor.exists_ahead_start_iff.mpr hstarts
    exact hnone d ⟨sequence, hmem, hahead⟩
  · rintro hnone d ⟨sequence, hmem, hahead⟩
    exact hnone sequence hmem ⟨d.ahead, hahead.symm⟩

/-- A whole text is taken if it is a member. -/
theorem accepts_iff :
    (set.fragment merge).accepts text = true ↔
      ∃ sequence ∈ set.sequences, sequence.chars = text := by
  rw [← Pattern.isFullMatch_fragment_iff set merge [], Pattern.isFullMatch_iff, Fragment.accepts,
    List.any_eq_true]
  simp only [decide_eq_true_eq, Cursor.atEnd_iff_offset]
  rfl

/-- A set's fragment offers one end for each member that stands at an offset, and offers them in
strictly descending order behind what was offered before; where no character begins it offers none.
So the preferred match of a text's start takes the longest member there, and only members are
taken whole. -/
theorem matching_members_longest_first (set : StringSet) (merge : Bool) (text : List Char) :
    (∀ (offset : Nat) (out : Array Nat),
      ((set.fragment merge).pushEnds text offset out).toList =
          out.toList ++ (set.fragment merge).matchEnds text offset ∧
        ((set.fragment merge).matchEnds text offset).Pairwise (· > ·) ∧
        (∀ stop, stop ∈ (set.fragment merge).matchEnds text offset ↔
          ∃ sequence ∈ set.sequences, StandsAt sequence.chars text offset ∧
            stop = offset + sequence.utf8Length) ∧
        (cut? text offset = none → (set.fragment merge).matchEnds text offset = [])) ∧
    (∀ length, (set.fragment merge).matchPrefix? text = some length ↔
      ∃ sequence ∈ set.sequences, sequence.chars <+: text ∧ sequence.utf8Length = length ∧
        ∀ other ∈ set.sequences, other.chars <+: text → other.length ≤ sequence.length) ∧
    ((set.fragment merge).matchPrefix? text = none ↔
      ∀ sequence ∈ set.sequences, ¬ sequence.chars <+: text) ∧
    ((set.fragment merge).accepts text = true ↔
      ∃ sequence ∈ set.sequences, sequence.chars = text) := by
  refine ⟨?ends, fun _ => set.matchPrefix?_eq_some_iff merge, set.matchPrefix?_eq_none_iff merge,
    set.accepts_iff merge⟩
  intro offset out
  refine ⟨Fragment.toList_pushEnds _ text offset out, set.pairwise_matchEnds merge text offset,
    fun _ => set.mem_matchEnds_iff merge, ?_⟩
  intro hcut
  rw [Fragment.matchEnds, Cursor.at?_eq_none_iff.mpr hcut]

end StringSet

end EmojiPatterns
