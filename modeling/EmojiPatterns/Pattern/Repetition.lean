import EmojiPatterns.Pattern.Quantifier
import EmojiPatterns.Text.Cursor

/-!
# Repetition

The places that a repeated body reaches are visited depth first: before the place where an
iteration starts come all places that can be reached by further iterations from there, so longer
repetitions are preferred.  The iterations under way are levels of a stack, and the candidate ends
of all levels lie in one array, each level owning the part from its start to the next level's
start.  `Stack.branches` reads off the array which ends each level has still to try, and
`step_of_next?` says in these terms all that a step can do.  Main statement: a step takes one off
the work that is left (`workLeft_of_step`), so the loop ends for every body.
-/

namespace EmojiPatterns.Repetition

variable {text : List Char}

/-- One iteration under way. -/
structure Level (text : List Char) where
  /-- Number of iterations that were finished before. -/
  count : Nat
  /-- Where the iteration starts. -/
  place : Cursor text
  /-- Index of its first candidate end. -/
  first : Nat
  /-- Index of its first candidate end that is still untried. -/
  next : Nat

/-- The iterations under way and their candidate ends. -/
structure Stack (text : List Char) where
  ends : Array (Cursor text)
  /-- The levels, the innermost first. -/
  levels : List (Level text)

/-- The sum of the work for several candidate ends. -/
def total {α : Type} (work : α → Nat) : List α → Nat
  | [] => 0
  | c :: rest => work c + total work rest

theorem total_attach {α : Type} (work : α → Nat) (ends : List α) :
    total (fun d : { d // d ∈ ends } => work d.val) ends.attach = total work ends := by
  have hmap : ∀ {β : Type} (f : β → α) (list : List β),
      total (fun b => work (f b)) list = total work (list.map f) := by
    intro β f list
    induction list with
    | nil => rfl
    | cons b rest ih => exact congrArg (work (f b) + ·) ih
  rw [hmap Subtype.val, List.attach_map_subtype_val]

/-- An iteration that is still needed, or that comes further, leaves less to be done. -/
theorem progress {least count : Nat} {c d : Cursor text} (hstep : count < least ∨ c < d) :
    Prod.Lex (· < ·) (· < ·) (least - (count + 1), d.ahead.length)
      (least - count, c.ahead.length) := by
  by_cases hcount : count < least
  · exact Prod.Lex.left _ _ (by omega)
  · have hlt : c < d := hstep.resolve_left hcount
    rw [show least - (count + 1) = least - count by omega]
    exact Prod.Lex.right _ (Cursor.ahead_length_lt hlt)

/-- A body and how often it may be repeated. -/
structure Loop (text : List Char) where
  quantifier : Quantifier
  /-- The ends of the body from a place, in order of preference. -/
  step : Cursor text → List (Cursor text)

namespace Loop

variable (loop : Loop text)

/-- Whether another iteration may follow `count` finished ones. -/
def allows (count : Nat) : Bool :=
  match loop.quantifier.most with
  | none => true
  | some most => count < most

theorem allows_eq_all (count : Nat) :
    loop.allows count = loop.quantifier.most.all (count < ·) := by
  rw [allows]
  cases loop.quantifier.most <;> rfl

/-- The ends of the iteration after `count` finished ones, each once.  An iteration that comes no
further is left out, unless it is needed for the least number. -/
def candidates (count : Nat) (c : Cursor text) : List (Cursor text) :=
  if loop.allows count then
    ((loop.step c).filter fun d => count < loop.quantifier.least || c < d).eraseDups
  else []

theorem lt_of_mem_candidates {count : Nat} {c d : Cursor text}
    (hmem : d ∈ loop.candidates count c) : count < loop.quantifier.least ∨ c < d := by
  rw [candidates] at hmem
  split at hmem
  · rw [List.mem_eraseDups, List.mem_filter] at hmem
    simpa using hmem.2
  · simp at hmem

/-- Starts the iteration after `count` finished ones. -/
def enter (count : Nat) (c : Cursor text) (stack : Stack text) : Stack text :=
  let first := stack.ends.size
  ⟨stack.ends ++ loop.candidates count c, ⟨count, c, first, first⟩ :: stack.levels⟩

/-- The stack before the first iteration. -/
def start (c : Cursor text) : Stack text :=
  loop.enter 0 c ⟨#[], []⟩

/-- The next step: an untried end of the innermost level starts an iteration; a level without one
is closed, and the place where it starts is reached if there were enough iterations before. -/
def next? (stack : Stack text) : Option (Option (Cursor text) × Stack text) :=
  match stack.levels with
  | [] => none
  | level :: outer =>
    if hnext : level.next < stack.ends.size then
      let levels := { level with next := level.next + 1 } :: outer
      some (none, loop.enter (level.count + 1) stack.ends[level.next] { stack with levels })
    else
      let reached := if loop.quantifier.least ≤ level.count then some level.place else none
      some (reached, ⟨stack.ends.shrink level.first, outer⟩)

/-- Number of steps from the start of an iteration until it is closed. -/
def work (count : Nat) (c : Cursor text) : Nat :=
  2 + total (fun d => work (count + 1) d.val) (loop.candidates count c).attach
termination_by (loop.quantifier.least - count, c.ahead.length)
decreasing_by exact progress (loop.lt_of_mem_candidates d.property)

theorem work_eq (count : Nat) (c : Cursor text) :
    loop.work count c =
      2 + total (loop.work (count + 1)) (loop.candidates count c) := by
  rw [work, total_attach (loop.work (count + 1))]

end Loop

/-- The levels' parts lie one after another and end at index `limit`, and the first untried end of
each level is in its own part or right behind it. -/
def Fits (limit : Nat) : List (Level text) → Prop
  | [] => True
  | level :: outer => level.first ≤ level.next ∧ level.next ≤ limit ∧ Fits level.first outer

/-- An iteration under way by itself: where it stands, and the candidate ends that it has still to
try. -/
structure Branch (text : List Char) where
  count : Nat
  place : Cursor text
  untried : List (Cursor text)

/-- The iterations of levels whose candidate ends stop at index `limit`. -/
def branchesOf (ends : List (Cursor text)) (limit : Nat) : List (Level text) → List (Branch text)
  | [] => []
  | level :: outer =>
    ⟨level.count, level.place, (ends.take limit).drop level.next⟩ ::
      branchesOf ends level.first outer

theorem branchesOf_append {ends more : List (Cursor text)} {limit : Nat}
    {levels : List (Level text)} (hfits : Fits limit levels) (hlimit : limit ≤ ends.length) :
    branchesOf (ends ++ more) limit levels = branchesOf ends limit levels := by
  induction levels generalizing limit with
  | nil => rfl
  | cons level outer ih =>
    obtain ⟨hfirst, hnext, houter⟩ := hfits
    simp only [branchesOf, List.take_append_of_le_length hlimit]
    rw [ih houter (by omega)]

theorem branchesOf_take {ends : List (Cursor text)} {limit bound : Nat}
    {levels : List (Level text)} (hfits : Fits limit levels) (hbound : limit ≤ bound) :
    branchesOf (ends.take bound) limit levels = branchesOf ends limit levels := by
  induction levels generalizing limit with
  | nil => rfl
  | cons level outer ih =>
    obtain ⟨hfirst, hnext, houter⟩ := hfits
    simp only [branchesOf, List.take_take, Nat.min_eq_left hbound]
    rw [ih houter (by omega)]

namespace Stack

/-- The parts of a stack's levels make up the whole array of ends. -/
def Fits (stack : Stack text) : Prop :=
  Repetition.Fits stack.ends.size stack.levels

/-- The iterations under way, the innermost first. -/
def branches (stack : Stack text) : List (Branch text) :=
  branchesOf stack.ends.toList stack.ends.size stack.levels

end Stack

namespace Loop

variable {loop : Loop text}

theorem fits_enter {count : Nat} {c : Cursor text} {stack : Stack text} (hfits : stack.Fits) :
    (loop.enter count c stack).Fits := by
  refine ⟨Nat.le_refl _, ?_, hfits⟩
  simp [enter, ← Array.length_toList]

theorem fits_start (c : Cursor text) : (loop.start c).Fits :=
  fits_enter trivial

/-- The iteration that starts has all its candidate ends to try, and the others are as before. -/
theorem branches_enter {count : Nat} {c : Cursor text} {stack : Stack text} (hfits : stack.Fits) :
    (loop.enter count c stack).branches =
      ⟨count, c, loop.candidates count c⟩ :: stack.branches := by
  have hsize : (stack.ends ++ loop.candidates count c).size =
      (stack.ends.toList ++ loop.candidates count c).length := by
    simp [← Array.length_toList]
  rw [Stack.branches, enter]
  simp only [branchesOf, Array.toList_appendList, hsize, List.take_length]
  rw [← Array.length_toList, List.drop_left]
  exact congrArg _ (branchesOf_append hfits (Nat.le_refl _))

/-- What a step can do to the iterations under way. -/
inductive Step (loop : Loop text) :
    List (Branch text) → Option (Cursor text) → List (Branch text) → Prop where
  /-- The innermost iteration has an untried end, from which another iteration starts. -/
  | enter {count : Nat} {place d : Cursor text} {untried : List (Cursor text)}
      {outer : List (Branch text)} :
      Step loop (⟨count, place, d :: untried⟩ :: outer) none
        (⟨count + 1, d, loop.candidates (count + 1) d⟩ :: ⟨count, place, untried⟩ :: outer)
  /-- The innermost iteration has none and is closed. -/
  | close {count : Nat} {place : Cursor text} {outer : List (Branch text)} :
      Step loop (⟨count, place, []⟩ :: outer)
        (if loop.quantifier.least ≤ count then some place else none) outer

/-- Every step keeps the parts in order. -/
theorem fits_of_next? {stack rest : Stack text} {reached : Option (Cursor text)}
    (hfits : stack.Fits) (hnext : loop.next? stack = some (reached, rest)) : rest.Fits := by
  rw [next?] at hnext
  rw [Stack.Fits] at hfits
  split at hnext
  · simp at hnext
  · next level outer hlevels =>
    rw [hlevels] at hfits
    obtain ⟨hfirst, hlimit, houter⟩ := hfits
    split at hnext
    · next huntried =>
      simp only [Option.some.injEq, Prod.mk.injEq] at hnext
      rw [← hnext.2]
      exact fits_enter ⟨Nat.le_succ_of_le hfirst, huntried, houter⟩
    · simp only [Option.some.injEq, Prod.mk.injEq] at hnext
      rw [← hnext.2]
      have hsize : min level.first stack.ends.size = level.first := by omega
      simpa [Stack.Fits, hsize] using houter

/-- Every step of the loop is one of the two. -/
theorem step_of_next? {stack rest : Stack text} {reached : Option (Cursor text)}
    (hfits : stack.Fits) (hnext : loop.next? stack = some (reached, rest)) :
    loop.Step stack.branches reached rest.branches := by
  rw [next?] at hnext
  rw [Stack.Fits] at hfits
  split at hnext
  · simp at hnext
  · next level outer hlevels =>
    rw [hlevels] at hfits
    obtain ⟨hfirst, hlimit, houter⟩ := hfits
    have hall : stack.ends.toList.take stack.ends.size = stack.ends.toList := by
      simp [← Array.length_toList]
    have hbranches : stack.branches =
        ⟨level.count, level.place, stack.ends.toList.drop level.next⟩ ::
          branchesOf stack.ends.toList level.first outer := by
      rw [Stack.branches, hlevels, branchesOf, hall]
    split at hnext
    · next huntried =>
      simp only [Option.some.injEq, Prod.mk.injEq] at hnext
      obtain ⟨rfl, rfl⟩ := hnext
      have huntried' : level.next < stack.ends.toList.length := huntried
      have hpassed : Stack.Fits ⟨stack.ends, { level with next := level.next + 1 } :: outer⟩ :=
        ⟨Nat.le_succ_of_le hfirst, huntried, houter⟩
      rw [branches_enter hpassed, hbranches, List.drop_eq_getElem_cons huntried',
        Array.getElem_toList]
      simp only [Stack.branches, branchesOf, hall]
      exact Step.enter
    · next htried =>
      simp only [Option.some.injEq, Prod.mk.injEq] at hnext
      obtain ⟨rfl, rfl⟩ := hnext
      have hsize : min level.first stack.ends.size = level.first := by omega
      have hnone : stack.ends.toList.drop level.next = [] :=
        List.drop_eq_nil_of_le (Nat.not_lt.mp htried)
      rw [hbranches, hnone]
      simp only [Stack.branches, Array.toList_shrink, Array.size_shrink, hsize]
      rw [branchesOf_take houter (Nat.le_refl _)]
      exact Step.close

/-- The work that is left for iterations under way. -/
def workLeft (loop : Loop text) (branches : List (Branch text)) : Nat :=
  total (fun branch => 1 + total (loop.work (branch.count + 1)) branch.untried) branches

/-- A step takes one off the work that is left. -/
theorem workLeft_of_step {branches rest : List (Branch text)} {reached : Option (Cursor text)}
    (hstep : loop.Step branches reached rest) :
    loop.workLeft branches = loop.workLeft rest + 1 := by
  cases hstep with
  | @enter count place d untried outer =>
    have hwork := loop.work_eq (count + 1) d
    simp only [workLeft, total]
    omega
  | close =>
    simp only [workLeft, total]
    omega

theorem workLeft_lt_of_step {branches rest : List (Branch text)} {reached : Option (Cursor text)}
    (hstep : loop.Step branches reached rest) : loop.workLeft rest < loop.workLeft branches := by
  rw [workLeft_of_step hstep]
  exact Nat.lt_succ_self _

variable (loop)

/-- Visits the places that the loop reaches from a stack on, until the visit of one says that it is
done. -/
def runFrom {σ : Type} (stack : Stack text) (hfits : stack.Fits)
    (visit : Cursor text → σ → ForInStep σ) (state : σ) : ForInStep σ :=
  match hnext : loop.next? stack with
  | none => .yield state
  | some (none, rest) => runFrom rest (fits_of_next? hfits hnext) visit state
  | some (some c, rest) =>
    match visit c state with
    | .done state => .done state
    | .yield state => runFrom rest (fits_of_next? hfits hnext) visit state
termination_by loop.workLeft stack.branches
decreasing_by
  · exact workLeft_lt_of_step (step_of_next? hfits hnext)
  · exact workLeft_lt_of_step (step_of_next? hfits hnext)

/-- Visits the places that the repeated body reaches from a place, in order of preference. -/
def run {σ : Type} (c : Cursor text) (visit : Cursor text → σ → ForInStep σ) (state : σ) :
    ForInStep σ :=
  loop.runFrom (loop.start c) (fits_start c) visit state

end Loop

end EmojiPatterns.Repetition
