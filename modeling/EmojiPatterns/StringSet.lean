import EmojiPatterns.DataError

/-!
# Sets of sequences

A `StringSet` is a named, non-empty set of sequences in ascending order.  It is built from a list
in any order; a list that names a sequence twice is refused.  Main statement: sorting and dropping
repeats leaves a strictly ascending list (`pairwise_lt_distinct`).
-/

namespace EmojiPatterns

namespace Sequence

/-- Sequences in ascending order, repeats included. -/
def sort (sequences : List Sequence) : List Sequence :=
  sequences.mergeSort fun left right => left ≤ right

/-- The first of an ascending list that occurs in it again. -/
def firstRepeat? : List Sequence → Option Sequence
  | left :: right :: rest => if left = right then some left else firstRepeat? (right :: rest)
  | _ => none

/-- An ascending list with each sequence kept once. -/
def dropRepeats : List Sequence → List Sequence
  | left :: right :: rest =>
    if left = right then dropRepeats (right :: rest) else left :: dropRepeats (right :: rest)
  | sequences => sequences

/-- The sequences of a list in strictly ascending order. -/
def distinct (sequences : List Sequence) : List Sequence :=
  dropRepeats (sort sequences)

theorem pairwise_le_sort (sequences : List Sequence) :
    (sort sequences).Pairwise (· ≤ ·) := by
  have hsorted := @List.pairwise_mergeSort _ (fun left right : Sequence => left ≤ right)
    (fun _ _ _ => by simpa using Sequence.le_trans)
    (fun left right => by simpa using Sequence.le_total left right) sequences
  simpa [sort] using hsorted

theorem mem_dropRepeats {sequences : List Sequence} {sequence : Sequence} :
    sequence ∈ dropRepeats sequences ↔ sequence ∈ sequences := by
  fun_induction dropRepeats sequences with
  | case1 right rest ih => simp [ih]
  | case2 left right rest hne ih => simp [ih]
  | case3 => rfl

theorem pairwise_lt_dropRepeats {sequences : List Sequence} (hsorted : sequences.Pairwise (· ≤ ·)) :
    (dropRepeats sequences).Pairwise (· < ·) := by
  fun_induction dropRepeats sequences with
  | case1 right rest ih => exact ih (List.pairwise_cons.mp hsorted).2
  | case2 left right rest hne ih =>
    obtain ⟨hleft, hrest⟩ := List.pairwise_cons.mp hsorted
    refine List.pairwise_cons.mpr ⟨?_, ih hrest⟩
    intro sequence hmem
    have hlt : left < right := by
      rcases Sequence.le_iff_lt_or_eq.mp (hleft right List.mem_cons_self) with hlt | heq
      · exact hlt
      · exact absurd heq hne
    rcases List.mem_cons.mp (mem_dropRepeats.mp hmem) with rfl | hmem
    · exact hlt
    · exact Sequence.lt_of_lt_of_le hlt ((List.pairwise_cons.mp hrest).1 sequence hmem)
  | case3 sequences hshort =>
    match sequences, hshort with
    | [], _ => exact .nil
    | [_], _ => exact List.pairwise_singleton _ _
    | left :: right :: rest, hshort => exact (hshort left right rest rfl).elim

theorem mem_distinct {sequences : List Sequence} {sequence : Sequence} :
    sequence ∈ distinct sequences ↔ sequence ∈ sequences := by
  simp [distinct, sort, mem_dropRepeats]

theorem pairwise_lt_distinct (sequences : List Sequence) :
    (distinct sequences).Pairwise (· < ·) :=
  pairwise_lt_dropRepeats (pairwise_le_sort sequences)

end Sequence

/-- A named set of sequences. -/
structure StringSet where
  name : String
  /-- The members, each once, in ascending order. -/
  sequences : List Sequence
  ascending : sequences.Pairwise (· < ·)
  nonempty : sequences ≠ []
deriving DecidableEq

namespace StringSet

/-- The set of the listed sequences, which may repeat, if there are any. -/
def ofMembers? (name : String) (sequences : List Sequence) : Option StringSet :=
  if hnonempty : Sequence.distinct sequences ≠ [] then
    some ⟨name, Sequence.distinct sequences, Sequence.pairwise_lt_distinct sequences, hnonempty⟩
  else none

/-- The set of the listed sequences.  A list without any is refused, and so is one with a repeat,
of which the least is reported. -/
def ofList (name : String) (sequences : List Sequence) : Except DataError StringSet :=
  match ofMembers? name sequences with
  | none => .error (.emptySet name)
  | some set =>
    match Sequence.firstRepeat? (Sequence.sort sequences) with
    | some sequence => .error (.duplicateSequence name sequence)
    | none => .ok set

/-- Number of members. -/
def size (set : StringSet) : Nat :=
  set.sequences.length

/-- Whether a sequence is a member. -/
def contains (set : StringSet) (sequence : Sequence) : Bool :=
  set.sequences.contains sequence

/-- Number of characters in the longest member. -/
def maxLength (set : StringSet) : Nat :=
  (set.sequences.map Sequence.length).foldl max 0

end StringSet

end EmojiPatterns
