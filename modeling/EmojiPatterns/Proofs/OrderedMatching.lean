import EmojiPatterns.Proofs.LoopOrder
import EmojiPatterns.Proofs.Steps

/-!
# Matching is ordered backtracking

The matcher hands places to what follows while it is still walking through a node, it lists the
ends of a repeated body beforehand, and it drops ends that it has listed already.  None of this can
be seen from behind: whatever follows a node, the matcher finds the first value on the node's
ordered list of ends.  Main statement: `Node.findSome?_eq_findSome?_ends`.
-/

namespace EmojiPatterns

variable {text : List Char}

/-! ### First values on lists -/

section FirstValues

variable {α β : Type}

theorem findSome?_flatMap (list : List α) (g : α → List α) (f : α → Option β) :
    (list.flatMap g).findSome? f = list.findSome? fun a => (g a).findSome? f := by
  induction list with
  | nil => rfl
  | cons a rest ih =>
    rw [List.flatMap_cons, List.findSome?_append, ih, List.findSome?_cons]
    cases (g a).findSome? f <;> rfl

theorem findSome?_filter (list : List α) (p : α → Bool) (f : α → Option β) :
    (list.filter p).findSome? f = list.findSome? fun a => if p a then f a else none := by
  induction list with
  | nil => rfl
  | cons a rest ih =>
    by_cases hp : p a = true
    · simp [hp, List.findSome?_cons, ih]
    · simp [hp, ih]

/-- An element that occurred before has no value unless the search has ended there. -/
theorem findSome?_eraseDups [DecidableEq α] (list : List α) (f : α → Option β) :
    list.eraseDups.findSome? f = list.findSome? f := by
  match list with
  | [] => rfl
  | a :: rest =>
    rw [List.eraseDups_cons, List.findSome?_cons, List.findSome?_cons,
      findSome?_eraseDups (rest.filter fun b => !b == a), findSome?_filter]
    cases hvalue : f a with
    | some b => rfl
    | none =>
      have hsame : (fun b => if (!b == a) = true then f b else none) = f := by
        funext b
        by_cases hb : b = a
        · simp [hb, hvalue]
        · simp [hb]
      simp only [hsame]
termination_by list.length
decreasing_by
  have hshorter := List.length_filter_le (fun b => !b == a) rest
  simp only [List.length_cons]
  omega

theorem findSome?_congr {list : List α} {f g : α → Option β} (hsame : ∀ a ∈ list, f a = g a) :
    list.findSome? f = list.findSome? g := by
  induction list with
  | nil => rfl
  | cons a rest ih =>
    rw [List.findSome?_cons, List.findSome?_cons, hsame a List.mem_cons_self,
      ih fun b hmem => hsame b (List.mem_cons_of_mem a hmem)]

/-- Two lists on which every search finds the same first value. -/
def SameFirst (left right : List α) : Prop :=
  ∀ (β : Type) (f : α → Option β), left.findSome? f = right.findSome? f

theorem SameFirst.of_eq {left right : List α} (heq : left = right) : SameFirst left right := by
  intro β f
  rw [heq]

theorem SameFirst.append {left left' right right' : List α} (hleft : SameFirst left left')
    (hright : SameFirst right right') : SameFirst (left ++ right) (left' ++ right') := by
  intro β f
  rw [List.findSome?_append, List.findSome?_append, hleft β f, hright β f]

theorem SameFirst.flatMap {left right : List α} {g h : α → List α} (hsame : SameFirst left right)
    (hvalue : ∀ a, SameFirst (g a) (h a)) : SameFirst (left.flatMap g) (right.flatMap h) := by
  intro β f
  have hinner : (fun a => (g a).findSome? f) = fun a => (h a).findSome? f :=
    funext fun a => hvalue a β f
  rw [findSome?_flatMap, findSome?_flatMap, hinner]
  exact hsame β _

theorem SameFirst.isEmpty_eq {left right : List α} (hsame : SameFirst left right) :
    left.isEmpty = right.isEmpty := by
  have hfirst := hsame α some
  cases left <;> cases right <;> simp_all

end FirstValues

namespace Node

/-! ### The places that a visit shows -/

/-- A node shows the places of a list, in this order, to every visitor. -/
def Shows (node : Node) (c : Cursor text) (places : List (Cursor text)) : Prop :=
  ∀ (σ : Type) (visitor : Cursor text → σ → ForInStep σ) (state : σ),
    node.visit c visitor state = visitAll visitor state places

theorem visitAll_collect (places found : List (Cursor text)) :
    visitAll (fun d found => .yield (d :: found)) found places =
      .yield (places.reverse ++ found) := by
  induction places generalizing found with
  | nil => rfl
  | cons c rest ih =>
    rw [List.reverse_cons, List.append_assoc, List.singleton_append]
    exact ih (c :: found)

theorem visitAll_any (places : List (Cursor text)) :
    (visitAll (fun _ _ => .done true) false places).value = !places.isEmpty := by
  cases places <;> rfl

theorem visitAll_findSome? {β : Type} (f : Cursor text → Option β) (places : List (Cursor text)) :
    (visitAll (fun d found =>
      match f d with
      | some value => .done (some value)
      | none => .yield found) none places).value = places.findSome? f := by
  induction places with
  | nil => rfl
  | cons c rest ih =>
    rw [visitAll, List.findSome?_cons]
    cases f c with
    | some value => rfl
    | none => exact ih

/-- What a node shows is what is reached from it. -/
theorem Shows.reached_eq {node : Node} {c : Cursor text} {places : List (Cursor text)}
    (hshows : node.Shows c places) : node.reached c = places := by
  rw [reached, hshows, visitAll_collect, List.append_nil]
  exact List.reverse_reverse places

theorem Shows.reached {node : Node} {c : Cursor text} {places : List (Cursor text)}
    (hshows : node.Shows c places) : node.Shows c (node.reached c) := by
  rw [hshows.reached_eq]
  exact hshows

/-- A test of the place shows the place or nothing. -/
theorem ite_eq_visitAll {σ : Type} (p : Prop) [Decidable p] (c : Cursor text)
    (visitor : Cursor text → σ → ForInStep σ) (state : σ) :
    (if p then visitor c state else .yield state) =
      visitAll visitor state (if p then [c] else []) := by
  by_cases hp : p
  · rw [if_pos hp, if_pos hp, visitAll]
    cases visitor c state <;> rfl
  · rw [if_neg hp, if_neg hp, visitAll]

/-- A test of the next character shows the place behind it or nothing. -/
theorem visitNext_eq_visitAll {σ : Type} (test : Char → Bool) (c : Cursor text)
    (visitor : Cursor text → σ → ForInStep σ) (state : σ) :
    visitNext test c visitor state = visitAll visitor state ((Steps.next test).ends c) := by
  simp only [visitNext, Steps.next]
  cases c.next? with
  | none => rfl
  | some step => exact ite_eq_visitAll (test step.1 = true) step.2 visitor state

/-! A node without parts shows its ordered ends. -/

theorem shows_empty (c : Cursor text) : empty.Shows c (empty.ends c) :=
  fun _ => ite_eq_visitAll True c

theorem shows_char (expected : Char) (c : Cursor text) :
    (char expected).Shows c ((char expected).ends c) :=
  fun _ => visitNext_eq_visitAll _ c

theorem shows_anyChar (c : Cursor text) : anyChar.Shows c (anyChar.ends c) :=
  fun _ => visitNext_eq_visitAll _ c

theorem shows_set (chars : CharSet) (c : Cursor text) : (set chars).Shows c ((set chars).ends c) :=
  fun _ => visitNext_eq_visitAll _ c

theorem shows_strings (fragment : Fragment) (c : Cursor text) :
    (strings fragment).Shows c ((strings fragment).ends c) :=
  fun _ _ _ => rfl

theorem shows_textStart (c : Cursor text) : textStart.Shows c (textStart.ends c) := by
  intro σ visitor state
  simp only [visit, ends, steps, Steps.stay, decide_eq_true_eq]
  exact ite_eq_visitAll (c.offset = 0) c visitor state

theorem shows_textEnd (c : Cursor text) : textEnd.Shows c (textEnd.ends c) := by
  intro σ visitor state
  simp only [visit, ends, steps, Steps.stay, decide_eq_true_eq, Cursor.atEnd_iff_offset]
  exact ite_eq_visitAll (c.offset = utf8Length text) c visitor state

/-! A node with parts shows what its parts show, put together. -/

theorem shows_seq {first second : Node} {c : Cursor text}
    (hfirst : first.Shows c (first.reached c))
    (hsecond : ∀ d : Cursor text, second.Shows d (second.reached d)) :
    (seq first second).Shows c ((first.reached c).flatMap second.reached) := by
  intro σ visitor state
  have hinner : (fun d => second.visit d visitor) =
      fun d state => visitAll visitor state (second.reached d) := by
    funext d state
    exact hsecond d σ visitor state
  rw [visit, hfirst, hinner, visitAll_flatMap]

theorem shows_alt {first second : Node} {c : Cursor text}
    (hfirst : first.Shows c (first.reached c)) (hsecond : second.Shows c (second.reached c)) :
    (alt first second).Shows c (first.reached c ++ second.reached c) := by
  intro σ visitor state
  rw [visit, hfirst, visitAll_append]
  cases visitAll visitor state (first.reached c) with
  | done => rfl
  | yield state => exact hsecond σ visitor state

/-- The loop of a repeated body. -/
def loop (body : Node) (quantifier : Quantifier) : Repetition.Loop text :=
  ⟨quantifier, body.reached⟩

theorem shows_iterate (body : Node) (quantifier : Quantifier) (c : Cursor text) :
    (iterate body quantifier).Shows c ((body.loop quantifier).order 0 c) := by
  intro σ visitor state
  rw [visit]
  exact Repetition.Loop.run_eq_visitAll c visitor state

theorem shows_look {body : Node} {c : Cursor text} (negated : Bool)
    (hbody : body.Shows c (body.reached c)) :
    (look body negated).Shows c (if (body.reached c).isEmpty = negated then [c] else []) := by
  intro σ visitor state
  have hfound : (body.visit c (fun _ _ => .done true) false).value =
      !(body.reached c).isEmpty := by
    rw [hbody, visitAll_any]
  rw [visit, hfound, ← ite_eq_visitAll]
  cases (body.reached c).isEmpty <;> cases negated <;> rfl

/-- Every visit of a node shows one and the same list of places. -/
theorem shows_reached (node : Node) (c : Cursor text) : node.Shows c (node.reached c) := by
  induction node generalizing c with
  | empty => exact (shows_empty c).reached
  | char expected => exact (shows_char expected c).reached
  | anyChar => exact (shows_anyChar c).reached
  | set chars => exact (shows_set chars c).reached
  | strings fragment => exact (shows_strings fragment c).reached
  | seq first second ihfirst ihsecond => exact (shows_seq (ihfirst c) ihsecond).reached
  | alt first second ihfirst ihsecond => exact (shows_alt (ihfirst c) (ihsecond c)).reached
  | iterate body quantifier => exact (shows_iterate body quantifier c).reached
  | look body negated ih => exact (shows_look negated (ih c)).reached
  | textStart => exact (shows_textStart c).reached
  | textEnd => exact (shows_textEnd c).reached

/-- What follows a node gets the first value that it has among the places that are reached. -/
theorem findSome?_eq_findSome?_reached {β : Type} (node : Node) (f : Cursor text → Option β)
    (c : Cursor text) : node.findSome? f c = (node.reached c).findSome? f := by
  rw [findSome?, node.shows_reached c]
  exact visitAll_findSome? f (node.reached c)

/-! ### Places that are reached and ordered ends -/

/-- The loop drops ends that it has listed before, and counts no iteration that comes no further.
Its order still has the first values of the ordered ends of a repetition. -/
theorem sameFirst_order (quantifier : Quantifier) {step : Cursor text → List (Cursor text)}
    {body : Steps text} (hbody : ∀ c, SameFirst (step c) (body.ends c)) (count : Nat)
    (c : Cursor text) :
    SameFirst (Repetition.Loop.order ⟨quantifier, step⟩ count c)
      (body.rounds quantifier count c) := by
  intro β f
  -- The two sides differ in how they list the ends of one more iteration.
  have hround : ((Repetition.Loop.candidates ⟨quantifier, step⟩ count c).findSome? fun d =>
        (Repetition.Loop.order ⟨quantifier, step⟩ (count + 1) d).findSome? f) =
      (body.iteration quantifier count c).findSome? fun d =>
        (body.rounds quantifier (count + 1) d).findSome? f := by
    rw [Repetition.Loop.candidates, Steps.iteration, Repetition.Loop.allows_eq_all]
    split
    · rw [findSome?_eraseDups, findSome?_filter, findSome?_filter, hbody c]
      apply findSome?_congr
      intro d hends
      by_cases hstep : count < quantifier.least ∨ c < d
      · have hrest := sameFirst_order quantifier hbody (count + 1) d β f
        have hkept : count < quantifier.least ∨ d ≠ c := by
          apply hstep.imp_right
          intro hlt heq
          rw [heq] at hlt
          exact Nat.lt_irrefl _ hlt
        simp only [hstep, hkept, Bool.or_eq_true, decide_eq_true_eq, ↓reduceIte, hrest]
      · have hdropped : ¬ (count < quantifier.least ∨ d ≠ c) := by
          rintro (hneeded | hne)
          · exact hstep (.inl hneeded)
          · exact hstep (.inr (Cursor.lt_of_le_of_ne (body.forward c d hends) hne))
        simp only [hstep, hdropped, Bool.or_eq_true, decide_eq_true_eq, ↓reduceIte]
    · rfl
  rw [Repetition.Loop.order_eq, body.rounds_eq, List.findSome?_append, List.findSome?_append,
    findSome?_flatMap, findSome?_flatMap, hround]
termination_by (quantifier.least - count, c.ahead.length)
decreasing_by exact Repetition.progress hstep

/-- Every search finds the same first value among the places that are reached as among the ordered
ends. -/
theorem sameFirst_reached (node : Node) (c : Cursor text) :
    SameFirst (node.reached c) (node.ends c) := by
  induction node generalizing c with
  | empty => exact .of_eq (shows_empty c).reached_eq
  | char expected => exact .of_eq (shows_char expected c).reached_eq
  | anyChar => exact .of_eq (shows_anyChar c).reached_eq
  | set chars => exact .of_eq (shows_set chars c).reached_eq
  | strings fragment => exact .of_eq (shows_strings fragment c).reached_eq
  | seq first second ihfirst ihsecond =>
    rw [(shows_seq (first.shows_reached c) second.shows_reached).reached_eq, ends_seq]
    exact (ihfirst c).flatMap ihsecond
  | alt first second ihfirst ihsecond =>
    rw [(shows_alt (first.shows_reached c) (second.shows_reached c)).reached_eq, ends_alt]
    exact (ihfirst c).append (ihsecond c)
  | iterate body quantifier ih =>
    rw [(shows_iterate body quantifier c).reached_eq]
    exact sameFirst_order quantifier ih 0 c
  | look body negated ih =>
    rw [(shows_look negated (body.shows_reached c)).reached_eq, (ih c).isEmpty_eq]
    simp only [ends, steps, Steps.stay, decide_eq_true_eq]
    exact .of_eq rfl
  | textStart => exact .of_eq (shows_textStart c).reached_eq
  | textEnd => exact .of_eq (shows_textEnd c).reached_eq

/-- Matching is ordered backtracking: whatever follows a node, the matcher hands it the ordered
ends of the node one by one until there is a value. -/
theorem findSome?_eq_findSome?_ends {β : Type} (node : Node) (f : Cursor text → Option β)
    (c : Cursor text) : node.findSome? f c = (node.ends c).findSome? f :=
  calc
    node.findSome? f c = (node.reached c).findSome? f := node.findSome?_eq_findSome?_reached f c
    _ = (node.ends c).findSome? f := node.sameFirst_reached c β f

end Node

end EmojiPatterns
