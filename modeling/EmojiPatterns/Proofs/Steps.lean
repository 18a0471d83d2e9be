import EmojiPatterns.Pattern.Node
import EmojiPatterns.Pattern.Repetition
import EmojiPatterns.Proofs.FragmentWords

/-!
# Ordered ends of a node

What a node means, apart from how it is matched: from each place it leads to a list of ends, the
preferred one first.  The lists are built by recursion on the node out of a few operations, each of
which leads onward only.  An end may be listed several times, since nothing here looks at what was
listed before.
-/

namespace EmojiPatterns

variable {text : List Char}

/-- Ways to go on from each place, in order of preference. -/
@[ext]
structure Steps (text : List Char) where
  ends : Cursor text → List (Cursor text)
  /-- No end comes before the place where it is reached from. -/
  forward : ∀ c d : Cursor text, d ∈ ends c → c ≤ d

namespace Steps

/-- Stays at the place, if that passes a test. -/
def stay (test : Cursor text → Bool) : Steps text where
  ends c := if test c then [c] else []
  forward c d hmem := by
    split at hmem
    · rw [List.mem_singleton.mp hmem]
      exact Cursor.le_refl c
    · simp at hmem

/-- Takes the next character, if that passes a test. -/
def next (test : Char → Bool) : Steps text where
  ends c :=
    match c.next? with
    | some (x, d) => if test x then [d] else []
    | none => []
  forward c d hmem := by
    split at hmem
    · next x e hnext =>
      split at hmem
      · rw [List.mem_singleton.mp hmem]
        exact Cursor.le_of_lt (Cursor.lt_of_next?_eq_some hnext)
      · simp at hmem
    · simp at hmem

/-- Takes one of the words of a fragment, in its order. -/
def word (fragment : Fragment) : Steps text where
  ends c := fragment.ends c
  forward _ _ hmem := Fragment.le_of_mem_ends hmem

/-- From each end of the first in turn the ends of the second. -/
def followedBy (first second : Steps text) : Steps text where
  ends c := (first.ends c).flatMap second.ends
  forward c d hmem := by
    obtain ⟨e, hfirst, hsecond⟩ := List.mem_flatMap.mp hmem
    exact Cursor.le_trans (first.forward c e hfirst) (second.forward e d hsecond)

/-- The ends of the first, and then those of the second. -/
def orElse (first second : Steps text) : Steps text where
  ends c := first.ends c ++ second.ends c
  forward c d hmem := by
    rcases List.mem_append.mp hmem with hfirst | hsecond
    · exact first.forward c d hfirst
    · exact second.forward c d hsecond

variable (body : Steps text) (quantifier : Quantifier)

/-- The ends of one more iteration after `count` finished ones.  Once `count` is enough, an
iteration that stays where it is does not count. -/
def iteration (count : Nat) (c : Cursor text) : List (Cursor text) :=
  if quantifier.most.all (count < ·) then
    (body.ends c).filter fun d => count < quantifier.least || d ≠ c
  else []

theorem mem_iteration_iff {count : Nat} {c d : Cursor text} :
    d ∈ body.iteration quantifier count c ↔
      (∀ most ∈ quantifier.most, count < most) ∧ d ∈ body.ends c ∧
        (count < quantifier.least ∨ d ≠ c) := by
  have hmost : quantifier.most.all (count < ·) = true ↔
      ∀ most ∈ quantifier.most, count < most := by
    cases quantifier.most <;> simp
  rw [← hmost, iteration]
  split
  · next hallowed => simp [hallowed]
  · next hover => simp [hover]

theorem progress_of_mem_iteration {count : Nat} {c d : Cursor text}
    (hmem : d ∈ body.iteration quantifier count c) : count < quantifier.least ∨ c < d := by
  obtain ⟨-, hends, hneeded | hne⟩ := (body.mem_iteration_iff quantifier).mp hmem
  · exact .inl hneeded
  · exact .inr (Cursor.lt_of_le_of_ne (body.forward c d hends) hne)

/-- The ends of a repetition after `count` finished iterations: for each end of one more iteration
in turn those after `count + 1`, and then the place itself if `count` is enough. -/
def rounds (count : Nat) (c : Cursor text) : List (Cursor text) :=
  ((body.iteration quantifier count c).attach.flatMap fun d => rounds (count + 1) d.val) ++
    if quantifier.least ≤ count then [c] else []
termination_by (quantifier.least - count, c.ahead.length)
decreasing_by exact Repetition.progress (body.progress_of_mem_iteration quantifier d.property)

theorem rounds_eq (count : Nat) (c : Cursor text) :
    body.rounds quantifier count c =
      (body.iteration quantifier count c).flatMap (body.rounds quantifier (count + 1)) ++
        if quantifier.least ≤ count then [c] else [] := by
  rw [rounds, List.flatMap_subtype (fun _ _ => rfl), List.unattach_attach]

theorem le_of_mem_rounds {count : Nat} {c d : Cursor text}
    (hmem : d ∈ body.rounds quantifier count c) : c ≤ d := by
  rw [rounds_eq, List.mem_append, List.mem_flatMap] at hmem
  rcases hmem with ⟨e, hround, hrest⟩ | hplace
  · have hends := ((body.mem_iteration_iff quantifier).mp hround).2.1
    have hle := body.forward c e hends
    exact Cursor.le_trans hle (le_of_mem_rounds hrest)
  · split at hplace
    · rw [List.mem_singleton.mp hplace]
      exact Cursor.le_refl c
    · simp at hplace
termination_by (quantifier.least - count, c.ahead.length)
decreasing_by exact Repetition.progress (body.progress_of_mem_iteration quantifier hround)

/-- Repeats the body, as often as the quantifier says. -/
def repeated : Steps text where
  ends c := body.rounds quantifier 0 c
  forward _ _ hmem := body.le_of_mem_rounds quantifier hmem

end Steps

namespace Node

/-- The ordered ends that a node means. -/
def steps : Node → Steps text
  | empty => .stay fun _ => true
  | char expected => .next (· = expected)
  | anyChar => .next fun x => !isLineTerminator x
  | set chars => .next chars.contains
  | strings fragment => .word fragment
  | seq first second => first.steps.followedBy second.steps
  | alt first second => first.steps.orElse second.steps
  | iterate body quantifier => body.steps.repeated quantifier
  | look body negated => .stay fun c => (body.steps.ends c).isEmpty = negated
  | textStart => .stay fun c => c.offset = 0
  | textEnd => .stay fun c => c.offset = utf8Length text

/-- The ends of a node from a place, the preferred one first. -/
def ends (node : Node) (c : Cursor text) : List (Cursor text) :=
  node.steps.ends c

theorem ends_seq (first second : Node) (c : Cursor text) :
    (seq first second).ends c = (first.ends c).flatMap second.ends := rfl

theorem ends_alt (first second : Node) (c : Cursor text) :
    (alt first second).ends c = first.ends c ++ second.ends c := rfl

/-- A run of nodes leads on from each end of its first node. -/
theorem ends_sequence_cons (node : Node) (rest : List Node) (c : Cursor text) :
    (sequence (node :: rest)).ends c = (node.ends c).flatMap (sequence rest).ends := by
  cases rest with
  | nil => exact (List.flatMap_singleton' _).symm
  | cons second rest => rfl

/-- A choice lists the ends of its branches in turn. -/
theorem ends_choice (first : Node) (rest : List Node) (c : Cursor text) :
    (choice first rest).ends c = (first :: rest).flatMap fun node => node.ends c := by
  induction rest generalizing first with
  | nil => exact (List.append_nil _).symm
  | cons second rest ih =>
    rw [choice, ends_alt, ih]
    rfl

end Node

end EmojiPatterns
