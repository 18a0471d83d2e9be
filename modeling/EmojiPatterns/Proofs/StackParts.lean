import EmojiPatterns.Proofs.LoopRounds
import EmojiPatterns.Proofs.Places
import Mathlib.Data.List.Pairwise

/-!
# The stack of a loop

The levels of a stack divide the array of ends among them: each owns the part up to the next
level's start, with the ends that its iteration has to try, and an iteration starts at the end that
the one outside of it has tried last.  From this it follows how deep the stack can be.  While
iterations are needed for the least number they may stay where they are, and each one after that
comes further in the text.  Main statement: `Node.repetition_is_bounded`.
-/

namespace EmojiPatterns

variable {text : List Char}

namespace Repetition

/-- The ends that a level has tried. -/
def Level.tried (level : Level text) (ends : List (Cursor text)) : List (Cursor text) :=
  (ends.take level.next).drop level.first

/-- Where an iteration inside of some levels starts: at the end that the innermost of them has
tried last, or where the loop starts if there are none. -/
def startInside? (c : Cursor text) (ends : List (Cursor text)) :
    List (Level text) → Option (Cursor text)
  | [] => some c
  | outer :: _ => (outer.tried ends).getLast?

/-- How a level stands inside of others if its part of the array stops at index `limit`. -/
structure Level.Stands (level : Level text) (loop : Loop text) (c : Cursor text)
    (ends : List (Cursor text)) (limit : Nat) (outer : List (Level text)) : Prop where
  count_eq : level.count = outer.length
  start_eq : startInside? c ends outer = some level.place
  part_eq : (ends.take limit).drop level.first = loop.candidates level.count level.place
  first_le_next : level.first ≤ level.next
  next_le : level.next ≤ limit

/-- The levels divide the array up to index `limit` among them, the innermost level owning the
last part. -/
def Divide (loop : Loop text) (c : Cursor text) (ends : List (Cursor text)) :
    Nat → List (Level text) → Prop
  | limit, [] => limit = 0
  | limit, level :: outer =>
    level.Stands loop c ends limit outer ∧ Divide loop c ends level.first outer

/-- The levels of a stack divide all of its array among them. -/
def Stack.Divided (stack : Stack text) (loop : Loop text) (c : Cursor text) : Prop :=
  Divide loop c stack.ends.toList stack.ends.size stack.levels

variable {loop : Loop text} {c : Cursor text}

/-! ### What a round keeps -/

theorem Level.tried_eq_take_drop {level : Level text} {limit : Nat} (hnext : level.next ≤ limit)
    (ends : List (Cursor text)) :
    level.tried ends = ((ends.take limit).drop level.first).take (level.next - level.first) := by
  rw [Level.tried, ← List.drop_take, List.take_take, Nat.min_eq_left hnext]

theorem Level.tried_congr {level : Level text} {limit : Nat} (hnext : level.next ≤ limit)
    {ends others : List (Cursor text)} (hsame : ends.take limit = others.take limit) :
    level.tried ends = level.tried others := by
  rw [tried_eq_take_drop hnext, tried_eq_take_drop hnext, hsame]

theorem startInside?_congr {levels : List (Level text)} {limit : Nat}
    {ends others : List (Cursor text)} (hdivide : Divide loop c ends limit levels)
    (hsame : ends.take limit = others.take limit) :
    startInside? c ends levels = startInside? c others levels := by
  cases levels with
  | nil => rfl
  | cons level outer => exact congrArg List.getLast? (level.tried_congr hdivide.1.next_le hsame)

/-- Levels look at the array in front of their limit only. -/
theorem Divide.congr {levels : List (Level text)} {limit : Nat} {ends others : List (Cursor text)}
    (hdivide : Divide loop c ends limit levels) (hsame : ends.take limit = others.take limit) :
    Divide loop c others limit levels := by
  induction levels generalizing limit with
  | nil => exact hdivide
  | cons level outer ih =>
    obtain ⟨hlevel, houter⟩ := hdivide
    have hfirst : level.first ≤ limit := Nat.le_trans hlevel.first_le_next hlevel.next_le
    have hfront : ends.take level.first = others.take level.first := by
      rw [← Nat.min_eq_left hfirst, ← List.take_take, hsame, List.take_take]
    refine ⟨{ hlevel with start_eq := ?_, part_eq := ?_ }, ih houter hfront⟩
    · rw [← startInside?_congr houter hfront, hlevel.start_eq]
    · rw [← hsame, hlevel.part_eq]

/-- The end that a level goes on to is the last one that it has tried then. -/
theorem Level.getLast?_tried_succ (level : Level text) {ends : List (Cursor text)}
    (hfirst : level.first ≤ level.next) (huntried : level.next < ends.length) :
    (({ level with next := level.next + 1 } : Level text).tried ends).getLast? =
      some ends[level.next] := by
  have hlength : level.first ≤ (ends.take level.next).length := by
    rwa [List.length_take, Nat.min_eq_left (Nat.le_of_lt huntried)]
  rw [Level.tried, List.take_add_one, List.getElem?_eq_getElem huntried, Option.toList_some,
    List.drop_append_of_le_length hlength, List.getLast?_concat]

namespace Loop

/-- A level that is entered gets a part of its own behind the others. -/
theorem divided_enter {stack : Stack text} {place : Cursor text} (hdivided : stack.Divided loop c)
    (hstart : startInside? c stack.ends.toList stack.levels = some place) :
    (loop.enter stack.levels.length place stack).Divided loop c := by
  let more := loop.candidates stack.levels.length place
  have hends : (stack.ends ++ more).toList = stack.ends.toList ++ more := Array.toList_appendList
  have hsize : (stack.ends ++ more).size = (stack.ends.toList ++ more).length := by
    rw [← hends, Array.length_toList]
  have hsame : stack.ends.toList.take stack.ends.size =
      (stack.ends ++ more).toList.take stack.ends.size := by
    rw [hends, ← Array.length_toList, List.take_left, List.take_length]
  refine ⟨⟨rfl, ?start, ?part, Nat.le_refl _, ?next⟩, hdivided.congr hsame⟩
  case start => exact (startInside?_congr hdivided hsame).symm.trans hstart
  case part =>
    change ((stack.ends ++ more).toList.take (stack.ends ++ more).size).drop stack.ends.size = more
    rw [hsize, hends, List.take_length, ← Array.length_toList, List.drop_left]
  case next =>
    change stack.ends.size ≤ (stack.ends ++ more).size
    rw [hsize, List.length_append, Array.length_toList]
    exact Nat.le_add_right _ _

theorem divided_start (loop : Loop text) (c : Cursor text) : (loop.start c).Divided loop c := by
  have hempty : Stack.Divided (⟨#[], []⟩ : Stack text) loop c := rfl
  exact divided_enter hempty rfl

/-- A level that goes on to its next end keeps its part. -/
theorem divided_try {ends : Array (Cursor text)} {level : Level text} {outer : List (Level text)}
    (hdivided : Stack.Divided ⟨ends, level :: outer⟩ loop c) (huntried : level.next < ends.size) :
    Stack.Divided ⟨ends, { level with next := level.next + 1 } :: outer⟩ loop c := by
  obtain ⟨hlevel, houter⟩ := hdivided
  exact ⟨{ hlevel with
    first_le_next := Nat.le_succ_of_le hlevel.first_le_next
    next_le := huntried }, houter⟩

/-- A level that is closed takes its part with it. -/
theorem divided_close {ends : Array (Cursor text)} {level : Level text} {outer : List (Level text)}
    (hdivided : Stack.Divided ⟨ends, level :: outer⟩ loop c) :
    Stack.Divided ⟨ends.shrink level.first, outer⟩ loop c := by
  obtain ⟨hlevel, houter⟩ := hdivided
  have hfirst : level.first ≤ ends.size := Nat.le_trans hlevel.first_le_next hlevel.next_le
  have hsize : (ends.shrink level.first).size = level.first := by
    rw [Array.size_shrink, Nat.min_eq_left hfirst]
  have hsame : ends.toList.take level.first =
      (ends.shrink level.first).toList.take level.first := by
    rw [Array.toList_shrink, List.take_take, Nat.min_self]
  rw [Stack.Divided, hsize]
  exact houter.congr hsame

/-- Every step keeps the array divided among the levels. -/
theorem divided_of_next? {stack rest : Stack text} {reached : Option (Cursor text)}
    (hdivided : stack.Divided loop c) (hnext : loop.next? stack = some (reached, rest)) :
    rest.Divided loop c := by
  obtain ⟨ends, levels⟩ := stack
  cases levels with
  | nil => cases hnext
  | cons level outer =>
    simp only [next?] at hnext
    split at hnext
    · next huntried =>
      cases hnext
      have hindex : level.next < ends.toList.length := huntried
      have htried := level.getLast?_tried_succ hdivided.1.first_le_next hindex
      have henter := divided_enter (divided_try hdivided huntried) htried
      rwa [List.length_cons, ← hdivided.1.count_eq] at henter
    · cases hnext
      exact divided_close hdivided

theorem divided_of_stackAfter {β : Type} {f : Cursor text → Option β} {rounds : Nat}
    {stack : Stack text} (hafter : loop.StackAfter f c rounds stack) : stack.Divided loop c := by
  induction hafter with
  | start => exact divided_start loop c
  | round _ hround ih =>
    obtain ⟨reached, hnext, -⟩ := next?_of_round hround
    exact divided_of_next? ih hnext

end Loop

/-! ### How deep a stack gets -/

/-- An iteration that comes after others: those beyond the least number have each left a character
behind, and there are no more than allowed. -/
structure Loop.Within (loop : Loop text) (c : Cursor text) (count : Nat) (place : Cursor text) :
    Prop where
  progress : count - loop.quantifier.least + place.ahead.length ≤ c.ahead.length
  allowed : ∀ most ∈ loop.quantifier.most, count ≤ most

theorem Loop.mem_candidates_iff {count : Nat} {place d : Cursor text} :
    d ∈ loop.candidates count place ↔ (∀ most ∈ loop.quantifier.most, count < most) ∧
      d ∈ loop.step place ∧ (count < loop.quantifier.least ∨ place < d) := by
  have hmost : loop.allows count = true ↔ ∀ most ∈ loop.quantifier.most, count < most := by
    simp [Loop.allows_eq_all, Option.all_eq_true]
  rw [← hmost, Loop.candidates]
  split
  · next hallowed => simp [hallowed]
  · next hover => simp [hover]

theorem Level.first_lt_next {level : Level text} {ends : List (Cursor text)} {d : Cursor text}
    (htried : (level.tried ends).getLast? = some d) : level.first < level.next := by
  apply Nat.lt_of_not_le
  intro hle
  have hnil : level.tried ends = [] :=
    List.drop_eq_nil_of_le (Nat.le_trans (List.length_take_le _ _) hle)
  rw [hnil] at htried
  cases htried

/-- What a level has tried is among the ends that its iteration has. -/
theorem Level.Stands.mem_candidates {level : Level text} {outer : List (Level text)}
    {ends : List (Cursor text)} {limit : Nat} {d : Cursor text}
    (hlevel : level.Stands loop c ends limit outer)
    (htried : (level.tried ends).getLast? = some d) :
    d ∈ loop.candidates level.count level.place := by
  rw [← hlevel.part_eq]
  have hmem := List.mem_of_getLast? htried
  rw [level.tried_eq_take_drop hlevel.next_le] at hmem
  exact List.mem_of_mem_take hmem

/-- The starts of the levels ascend from the outermost to the innermost. -/
theorem pairwise_first {levels : List (Level text)} {limit : Nat} {ends : List (Cursor text)}
    (hdivide : Divide loop c ends limit levels) :
    (levels.map (·.first)).Pairwise (· > ·) := by
  induction levels generalizing limit with
  | nil => exact .nil
  | cons level outer ih =>
    obtain ⟨hlevel, houter⟩ := hdivide
    cases outer with
    | nil => exact List.pairwise_singleton _ _
    | cons next rest =>
      have hlt : next.first < level.first :=
        Nat.lt_of_lt_of_le (Level.first_lt_next hlevel.start_eq) houter.1.next_le
      exact List.pairwise_cons_cons_iff_of_trans.mpr ⟨hlt, ih houter⟩

section

variable (hforward : ∀ place d : Cursor text, d ∈ loop.step place → place ≤ d)

include hforward

theorem Loop.Within.enter {count : Nat} {place d : Cursor text}
    (hwithin : loop.Within c count place) (hmem : d ∈ loop.candidates count place) :
    loop.Within c (count + 1) d := by
  obtain ⟨hallowed, hstep, hneeded⟩ := Loop.mem_candidates_iff.mp hmem
  refine ⟨?_, hallowed⟩
  have hprogress := hwithin.progress
  rcases hneeded with hneeded | hlt
  · have hlength := Cursor.ahead_length_le (hforward place d hstep)
    omega
  · have hlength := Cursor.ahead_length_lt hlt
    omega

/-- All iterations under way are within bounds. -/
theorem within_of_divide {levels : List (Level text)} {limit : Nat} {ends : List (Cursor text)}
    (hdivide : Divide loop c ends limit levels) :
    ∀ level ∈ levels, loop.Within c level.count level.place := by
  induction levels generalizing limit with
  | nil => exact List.forall_mem_nil _
  | cons level outer ih =>
    obtain ⟨hlevel, houter⟩ := hdivide
    refine List.forall_mem_cons.mpr ⟨?_, ih houter⟩
    cases outer with
    | nil =>
      obtain rfl : c = level.place := Option.some.inj hlevel.start_eq
      rw [hlevel.count_eq]
      exact ⟨by simp, fun _ _ => Nat.zero_le _⟩
    | cons next rest =>
      rw [hlevel.count_eq, List.length_cons, ← houter.1.count_eq]
      exact (ih houter next List.mem_cons_self).enter hforward
        (houter.1.mem_candidates hlevel.start_eq)

/-- There are no more levels than the iterations that are needed, those that the text leaves room
for, and the one under way. -/
theorem length_levels_le {levels : List (Level text)} {limit : Nat} {ends : List (Cursor text)}
    (hdivide : Divide loop c ends limit levels) :
    levels.length ≤ loop.quantifier.least + 1 + c.ahead.length ∧
      ∀ most ∈ loop.quantifier.most, levels.length ≤ most + 1 := by
  cases levels with
  | nil => exact ⟨Nat.zero_le _, fun _ _ => Nat.zero_le _⟩
  | cons level outer =>
    have hwithin := within_of_divide hforward hdivide level List.mem_cons_self
    have hprogress := hwithin.progress
    have hcount := hdivide.1.count_eq
    rw [List.length_cons, ← hcount]
    exact ⟨by omega, fun most hmost => Nat.succ_le_succ (hwithin.allowed most hmost)⟩

end

end Repetition

/-! ### Repeated nodes -/

theorem SameFirst.mem_iff {α : Type} [DecidableEq α] {left right : List α}
    (hsame : SameFirst left right) {a : α} : a ∈ left ↔ a ∈ right := by
  have hfound : ∀ list : List α,
      (list.findSome? fun b => if b = a then some () else none).isSome = true ↔ a ∈ list := by
    intro list
    simp [List.findSome?_isSome_iff]
  rw [← hfound, hsame, hfound]

namespace Node

/-- No place that a node reaches is behind the one where it starts. -/
theorem le_of_mem_reached {node : Node} {c d : Cursor text} (hmem : d ∈ node.reached c) : c ≤ d :=
  node.steps.forward c d ((node.sameFirst_reached c).mem_iff.mp hmem)

/-- An iteration has the ends of the body to try, each once; the place itself is none of them once
there are enough iterations. -/
theorem candidates_loop (body : Node) (quantifier : Quantifier) (count : Nat) (c : Cursor text) :
    (body.loop quantifier).candidates count c =
      if quantifier.most.all (count < ·) then
        ((body.reached c).filter fun d => count < quantifier.least || d ≠ c).eraseDups
      else [] := by
  have hkept : (body.reached c).filter (fun d => count < quantifier.least || c < d) =
      (body.reached c).filter fun d => count < quantifier.least || d ≠ c := by
    apply List.filter_congr
    intro d hmem
    have hiff : c < d ↔ d ≠ c := by
      refine ⟨?_, Cursor.lt_of_le_of_ne (le_of_mem_reached hmem)⟩
      rintro hlt rfl
      exact Nat.lt_irrefl _ hlt
    simp only [hiff]
  rw [Repetition.Loop.candidates, Repetition.Loop.allows_eq_all, ← hkept]
  rfl

variable {β : Type}

/-- The loop of a repeated node ends, whatever its quantifier and whatever follows it, with the
first value that is found behind the node.  Up to then no stack is deeper than the least number and
the characters ahead allow, nor deeper than the greatest number allows.  The levels start one behind
another in the array of ends and divide it among them: each owns just the ends that its iteration
has to try, and its next end is among them or right behind them. -/
theorem repetition_is_bounded (body : Node) (quantifier : Quantifier) (c : Cursor text)
    (f : Cursor text → Option β) :
    (∃ rounds last, (body.loop quantifier).StackAfter f c rounds last ∧
      (body.loop quantifier).round f last = .finished ((iterate body quantifier).findSome? f c)) ∧
    (∀ rounds stack, (body.loop quantifier).StackAfter f c rounds stack →
      rounds < (body.loop quantifier).work 0 c ∧
      stack.levels.length ≤ quantifier.least + 1 + c.ahead.length ∧
      (∀ most ∈ quantifier.most, stack.levels.length ≤ most + 1) ∧
      (stack.levels.map (·.first)).Pairwise (· > ·) ∧
      stack.Divided (body.loop quantifier) c) ∧
    ∀ (count : Nat) (d : Cursor text), (body.loop quantifier).candidates count d =
      if quantifier.most.all (count < ·) then
        ((body.reached d).filter fun e => count < quantifier.least || e ≠ d).eraseDups
      else [] := by
  have hfound : (iterate body quantifier).findSome? f c =
      ((body.loop quantifier).order 0 c).findSome? f := by
    rw [findSome?_eq_findSome?_reached, (shows_iterate body quantifier c).reached_eq]
  refine ⟨?ends, ?bounds, candidates_loop body quantifier⟩
  case ends =>
    rw [hfound]
    exact Repetition.Loop.exists_finished (body.loop quantifier) f c
  case bounds =>
    intro rounds stack hafter
    have hdivided := Repetition.Loop.divided_of_stackAfter hafter
    have hforward : ∀ place d : Cursor text,
        d ∈ (body.loop quantifier).step place → place ≤ d :=
      fun _ _ hmem => le_of_mem_reached hmem
    obtain ⟨hleast, hmost⟩ := Repetition.length_levels_le hforward hdivided
    exact ⟨Repetition.Loop.rounds_lt hafter, hleast, hmost, Repetition.pairwise_first hdivided,
      hdivided⟩

/-- The body may be empty and prefers that.  Its first iteration stays where it is, the second one
comes to the end, and the stack is as deep as it can be. -/
theorem repetition_is_bounded_attained :
    ∃ stack, ((alt .empty (.char 'a')).loop .oneOrMore).StackAfter (fun d => some d.offset)
        (Cursor.start ['a']) 2 stack ∧ stack.levels.length = 3 ∧
      stack.levels.length ≤ Quantifier.oneOrMore.least + 1 + (Cursor.start ['a']).ahead.length := by
  obtain ⟨stack, hafter, hlength⟩ : ∃ stack,
      ((alt .empty (.char 'a')).loop .oneOrMore).StackAfter (fun d => some d.offset)
        (Cursor.start ['a']) 2 stack ∧ stack.levels.length = 3 :=
    ⟨_, .round (.round .start rfl) rfl, rfl⟩
  obtain ⟨-, hbounds, -⟩ :=
    repetition_is_bounded (alt .empty (.char 'a')) .oneOrMore (Cursor.start ['a'])
      fun d => some d.offset
  exact ⟨stack, hafter, hlength, (hbounds 2 stack hafter).2.1⟩

end Node

end EmojiPatterns
