import EmojiPatterns.Proofs.OrderedMatching

/-!
# Rounds of a loop

A loop goes from stack to stack, one step a round, until a place that it reaches suits what follows
or no iteration is under way.  Nothing in the form of a round says that this comes about.  Each
round takes one unit off the work that is left, and what is still to be found stays the same, so
the loop is over after a number of rounds that is known beforehand, and it answers with the first
value among the places of its order.  Main statements: `Repetition.Loop.rounds_add_workLeft`,
`Repetition.Loop.exists_finished`.
-/

namespace EmojiPatterns.Repetition

variable {text : List Char} {β : Type}

/-- What a round of a loop comes to. -/
inductive Round (text : List Char) (β : Type) where
  /-- The loop is over, with a value that was found or without one. -/
  | finished (found : Option β)
  /-- The loop goes on with a stack. -/
  | goesOn (stack : Stack text)

namespace Loop

variable (loop : Loop text) (f : Cursor text → Option β)

/-- One round of a loop, whose places are offered to `f`. -/
def round (stack : Stack text) : Round text β :=
  match loop.next? stack with
  | none => .finished none
  | some (none, rest) => .goesOn rest
  | some (some place, rest) =>
    match f place with
    | some value => .finished (some value)
    | none => .goesOn rest

/-- The stack that a loop from a place has after a number of rounds. -/
inductive StackAfter (c : Cursor text) : Nat → Stack text → Prop where
  | start : StackAfter c 0 (loop.start c)
  | round {rounds : Nat} {stack rest : Stack text} (hafter : StackAfter c rounds stack)
      (hround : loop.round f stack = .goesOn rest) : StackAfter c (rounds + 1) rest

variable {loop f}

theorem next?_of_round {stack rest : Stack text} (hround : loop.round f stack = .goesOn rest) :
    ∃ reached, loop.next? stack = some (reached, rest) ∧ reached.bind f = none := by
  rw [round] at hround
  split at hround
  · cases hround
  · next hnext =>
    cases hround
    exact ⟨none, hnext, rfl⟩
  · next place _ hnext =>
    split at hround
    · cases hround
    · next hplace =>
      cases hround
      exact ⟨some place, hnext, hplace⟩

theorem StackAfter.fits {c : Cursor text} {rounds : Nat} {stack : Stack text}
    (hafter : loop.StackAfter f c rounds stack) : stack.Fits := by
  induction hafter with
  | start => exact fits_start c
  | round _ hround ih =>
    obtain ⟨reached, hnext, -⟩ := next?_of_round hround
    exact fits_of_next? ih hnext

/-! ### The number of rounds -/

/-- The rounds that were made and the work that is left add up to the work of the whole loop. -/
theorem rounds_add_workLeft {c : Cursor text} {rounds : Nat} {stack : Stack text}
    (hafter : loop.StackAfter f c rounds stack) :
    rounds + loop.workLeft stack.branches + 1 = loop.work 0 c := by
  induction hafter with
  | start =>
    rw [branches_start, loop.work_eq]
    simp only [workLeft, total]
    omega
  | round hstack hround ih =>
    obtain ⟨reached, hnext, -⟩ := next?_of_round hround
    have hwork := workLeft_of_step (step_of_next? hstack.fits hnext)
    omega

/-- After the work of the whole loop it is over. -/
theorem rounds_lt {c : Cursor text} {rounds : Nat} {stack : Stack text}
    (hafter : loop.StackAfter f c rounds stack) : rounds < loop.work 0 c := by
  have hwork := rounds_add_workLeft hafter
  omega

/-! ### What is found -/

/-- What is found from a stack on stays what is found at the start. -/
theorem findSome?_placesLeft {c : Cursor text} {rounds : Nat} {stack : Stack text}
    (hafter : loop.StackAfter f c rounds stack) :
    (loop.placesLeft stack.branches).findSome? f = (loop.order 0 c).findSome? f := by
  induction hafter with
  | start => rw [placesLeft_start]
  | round hstack hround ih =>
    obtain ⟨reached, hnext, hreached⟩ := next?_of_round hround
    rw [← ih, placesLeft_of_step (step_of_next? hstack.fits hnext), List.findSome?_append]
    cases reached with
    | none => rfl
    | some place =>
      have hplace : f place = none := hreached
      simp [hplace]

/-- When the loop is over, it has found the first value among the places of its order. -/
theorem found_of_finished {c : Cursor text} {rounds : Nat} {stack : Stack text} {found : Option β}
    (hafter : loop.StackAfter f c rounds stack) (hround : loop.round f stack = .finished found) :
    found = (loop.order 0 c).findSome? f := by
  rw [← findSome?_placesLeft hafter]
  rw [round] at hround
  split at hround
  · next hnext =>
    cases hround
    rw [branches_of_next?_eq_none hnext]
    rfl
  · cases hround
  · next place rest hnext =>
    split at hround
    · next value hplace =>
      cases hround
      rw [placesLeft_of_step (step_of_next? hafter.fits hnext)]
      simp [hplace]
    · cases hround

/-- From every stack the loop gets to its end. -/
theorem exists_finished_of_stackAfter {c : Cursor text} {rounds : Nat} {stack : Stack text}
    (hafter : loop.StackAfter f c rounds stack) :
    ∃ total last found, loop.StackAfter f c total last ∧ loop.round f last = .finished found := by
  cases hround : loop.round f stack with
  | finished found => exact ⟨rounds, stack, found, hafter, hround⟩
  | goesOn rest =>
    have hrest := hafter.round hround
    have hwork := rounds_lt hrest
    exact exists_finished_of_stackAfter hrest
termination_by loop.work 0 c - rounds

/-- A loop is over at some time, and then it has found the first value among the places of its
order. -/
theorem exists_finished (loop : Loop text) (f : Cursor text → Option β) (c : Cursor text) :
    ∃ rounds last, loop.StackAfter f c rounds last ∧
      loop.round f last = .finished ((loop.order 0 c).findSome? f) := by
  obtain ⟨rounds, last, found, hafter, hround⟩ := exists_finished_of_stackAfter (.start (f := f))
  exact ⟨rounds, last, hafter, found_of_finished hafter hround ▸ hround⟩

end Loop

end EmojiPatterns.Repetition
