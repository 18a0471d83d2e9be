import EmojiPatterns.Pattern.Match

/-!
# The order in which a loop reaches places

The stack of a loop is a depth first walk through a tree of iterations.  `Loop.order` lists the
places of that tree by recursion, without a stack: the places of each further iteration in turn,
and then the place where they all start.  Every step of the loop takes nothing but the place that
it reaches off the front of what is left, so the loop visits exactly the places of `Loop.order`.
Main statement: `Loop.run_eq_visitAll`.
-/

namespace EmojiPatterns

variable {text : List Char} {σ : Type}

namespace Node

/-- A visit of two lists goes on with the second if it is not done after the first. -/
theorem visitAll_append (visitor : Cursor text → σ → ForInStep σ) (state : σ)
    (front back : List (Cursor text)) :
    visitAll visitor state (front ++ back) =
      match visitAll visitor state front with
      | .done state => .done state
      | .yield state => visitAll visitor state back := by
  induction front generalizing state with
  | nil => rfl
  | cons c rest ih =>
    simp only [List.cons_append, visitAll]
    cases visitor c state with
    | done => rfl
    | yield state => exact ih state

theorem visitAll_flatMap (visitor : Cursor text → σ → ForInStep σ) (state : σ)
    (places : List (Cursor text)) (f : Cursor text → List (Cursor text)) :
    visitAll visitor state (places.flatMap f) =
      visitAll (fun d state => visitAll visitor state (f d)) state places := by
  induction places generalizing state with
  | nil => rfl
  | cons c rest ih =>
    rw [List.flatMap_cons, visitAll_append, visitAll]
    cases visitAll visitor state (f c) with
    | done => rfl
    | yield state => exact ih state

end Node

namespace Repetition

namespace Loop

variable (loop : Loop text)

/-- The places that are reached by further iterations after `count` finished ones, and then the
place itself if `count` is enough. -/
def order (count : Nat) (c : Cursor text) : List (Cursor text) :=
  ((loop.candidates count c).attach.flatMap fun d => order (count + 1) d.val) ++
    if loop.quantifier.least ≤ count then [c] else []
termination_by (loop.quantifier.least - count, c.ahead.length)
decreasing_by exact progress (loop.lt_of_mem_candidates d.property)

theorem order_eq (count : Nat) (c : Cursor text) :
    loop.order count c = (loop.candidates count c).flatMap (loop.order (count + 1)) ++
      if loop.quantifier.least ≤ count then [c] else [] := by
  rw [order, List.flatMap_subtype (fun _ _ => rfl), List.unattach_attach]

/-- The places that iterations under way are still to reach. -/
def placesLeft (branches : List (Branch text)) : List (Cursor text) :=
  branches.flatMap fun branch =>
    branch.untried.flatMap (loop.order (branch.count + 1)) ++
      if loop.quantifier.least ≤ branch.count then [branch.place] else []

variable {loop}

/-- A step takes the place that it reaches off the front. -/
theorem placesLeft_of_step {branches rest : List (Branch text)} {reached : Option (Cursor text)}
    (hstep : loop.Step branches reached rest) :
    loop.placesLeft branches = reached.toList ++ loop.placesLeft rest := by
  cases hstep with
  | @enter count place d untried outer =>
    have horder := loop.order_eq (count + 1) d
    simp only [placesLeft, List.flatMap_cons, horder, Option.toList_none, List.nil_append,
      List.append_assoc]
  | close =>
    simp only [placesLeft, List.flatMap_cons, List.flatMap_nil, List.nil_append]
    split <;> rfl

theorem branches_of_next?_eq_none {stack : Stack text} (hnext : loop.next? stack = none) :
    stack.branches = [] := by
  rw [next?] at hnext
  split at hnext
  · next hlevels => rw [Stack.branches, hlevels, branchesOf]
  · split at hnext <;> cases hnext

/-- From every stack on the loop visits the places that are left, in their order. -/
theorem runFrom_eq_visitAll (stack : Stack text) (hfits : stack.Fits)
    (visitor : Cursor text → σ → ForInStep σ) (state : σ) :
    loop.runFrom stack hfits visitor state =
      Node.visitAll visitor state (loop.placesLeft stack.branches) := by
  fun_induction runFrom loop stack hfits visitor state with
  | case1 stack hfits state hnext =>
    rw [branches_of_next?_eq_none hnext]
    rfl
  | case2 stack hfits state rest hnext ih =>
    rw [placesLeft_of_step (step_of_next? hfits hnext)]
    exact ih
  | case3 stack hfits state c rest hnext state' hdone =>
    rw [placesLeft_of_step (step_of_next? hfits hnext)]
    simp only [Option.toList_some, List.cons_append, Node.visitAll, hdone]
  | case4 stack hfits state c rest hnext state' hyield ih =>
    rw [placesLeft_of_step (step_of_next? hfits hnext)]
    simp only [Option.toList_some, List.cons_append, Node.visitAll, hyield]
    exact ih

theorem branches_start (c : Cursor text) :
    (loop.start c).branches = [⟨0, c, loop.candidates 0 c⟩] := by
  have hempty : Stack.Fits (⟨#[], []⟩ : Stack text) := trivial
  exact branches_enter hempty

/-- At the start all places of the order are left. -/
theorem placesLeft_start (c : Cursor text) :
    loop.placesLeft (loop.start c).branches = loop.order 0 c := by
  rw [branches_start, order_eq]
  simp only [placesLeft, List.flatMap_cons, List.flatMap_nil, List.append_nil]

/-- A loop visits the places of its order. -/
theorem run_eq_visitAll (c : Cursor text) (visitor : Cursor text → σ → ForInStep σ) (state : σ) :
    loop.run c visitor state = Node.visitAll visitor state (loop.order 0 c) := by
  rw [run, runFrom_eq_visitAll, placesLeft_start]

end Loop

end Repetition

end EmojiPatterns
