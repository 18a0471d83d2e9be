import EmojiPatterns.Proofs.Agreement

/-!
# Trees that resemble each other

What follows a node in a pattern takes the first end that suits it, so an end that is listed again
later on makes no difference.  Two nodes resemble each other if their ends occur for the first time
in the same order.  This is less than agreement, but it is still kept by everything that is built
from the nodes, and it is still all that matching shows.  Main statements:
`Node.Exchange.resembles`, `Pattern.alike_of_resembles`.
-/

namespace EmojiPatterns

variable {text : List Char}

/-! ### Lists that are searched alike -/

namespace SameFirst

variable {α : Type} {left mid right : List α}

protected theorem refl (list : List α) : SameFirst list list :=
  .of_eq rfl

protected theorem symm (hsame : SameFirst left right) : SameFirst right left :=
  fun β f => (hsame β f).symm

protected theorem trans (hleft : SameFirst left mid) (hright : SameFirst mid right) :
    SameFirst left right :=
  fun β f => (hleft β f).trans (hright β f)

theorem filter (p : α → Bool) (hsame : SameFirst left right) :
    SameFirst (left.filter p) (right.filter p) := by
  intro β f
  rw [findSome?_filter, findSome?_filter]
  exact hsame β _

theorem flatMap_congr {list : List α} {g h : α → List α}
    (hvalue : ∀ a ∈ list, SameFirst (g a) (h a)) :
    SameFirst (list.flatMap g) (list.flatMap h) := by
  intro β f
  rw [findSome?_flatMap, findSome?_flatMap]
  exact findSome?_congr fun a hmem => hvalue a hmem β f

/-- A list that was searched need not be searched again. -/
theorem append_again (front back : List α) :
    SameFirst (front ++ (front ++ back)) (front ++ back) := by
  intro β f
  rw [List.findSome?_append, List.findSome?_append]
  cases front.findSome? f <;> rfl

end SameFirst

/-! ### Steps -/

namespace Steps

/-- Steps whose ends occur for the first time in the same order, from every place. -/
def Resembles (left right : Steps text) : Prop :=
  ∀ c, SameFirst (left.ends c) (right.ends c)

namespace Resembles

variable {left mid right left' right' : Steps text}

protected theorem refl (steps : Steps text) : steps.Resembles steps :=
  fun _ => .refl _

protected theorem symm (hsteps : left.Resembles right) : right.Resembles left :=
  fun c => (hsteps c).symm

protected theorem trans (hleft : left.Resembles mid) (hright : mid.Resembles right) :
    left.Resembles right :=
  fun c => (hleft c).trans (hright c)

theorem followedBy (hfirst : left.Resembles left') (hsecond : right.Resembles right') :
    (left.followedBy right).Resembles (left'.followedBy right') :=
  fun c => (hfirst c).flatMap hsecond

theorem orElse (hfirst : left.Resembles left') (hsecond : right.Resembles right') :
    (left.orElse right).Resembles (left'.orElse right') :=
  fun c => (hfirst c).append (hsecond c)

/-- Both repetitions are searched like a loop over the ends of the first body. -/
theorem repeated (hbody : left.Resembles right) (quantifier : Quantifier) :
    (left.repeated quantifier).Resembles (right.repeated quantifier) := by
  intro c
  have hleft := Node.sameFirst_order quantifier (fun c => SameFirst.refl (left.ends c)) 0 c
  have hright := Node.sameFirst_order quantifier hbody 0 c
  exact hleft.symm.trans hright

end Resembles

end Steps

/-! ### Nodes -/

namespace Node

/-- Nodes that nothing that follows them can tell apart. -/
def Resembles (left right : Node) : Prop :=
  ∀ text : List Char, (left.steps : Steps text).Resembles right.steps

namespace Resembles

variable {left right left' right' : Node}

protected theorem refl (node : Node) : node.Resembles node :=
  fun _ => .refl _

protected theorem symm (hnodes : left.Resembles right) : right.Resembles left :=
  fun text => (hnodes text).symm

protected theorem trans {mid : Node} (hleft : left.Resembles mid) (hright : mid.Resembles right) :
    left.Resembles right :=
  fun text => (hleft text).trans (hright text)

protected theorem seq (hfirst : left.Resembles left') (hsecond : right.Resembles right') :
    (seq left right).Resembles (seq left' right') :=
  fun text => (hfirst text).followedBy (hsecond text)

protected theorem alt (hfirst : left.Resembles left') (hsecond : right.Resembles right') :
    (alt left right).Resembles (alt left' right') :=
  fun text => (hfirst text).orElse (hsecond text)

protected theorem iterate (hbody : left.Resembles right) (quantifier : Quantifier) :
    (iterate left quantifier).Resembles (iterate right quantifier) :=
  fun text => (hbody text).repeated quantifier

/-- Looking ahead asks only whether there are ends. -/
protected theorem look (hbody : left.Resembles right) (negated : Bool) :
    (look left negated).Resembles (look right negated) := by
  intro text c
  apply SameFirst.of_eq
  simp only [steps, Steps.stay, (hbody text c).isEmpty_eq]

end Resembles

/-- Exchanging parts that resemble each other makes a tree that resembles the first. -/
theorem Exchange.resembles {old new left right : Node} (hparts : old.Resembles new)
    (hexchange : Exchange old new left right) : left.Resembles right := by
  induction hexchange with
  | here => exact hparts
  | same node => exact .refl node
  | seq hfirst hsecond ihfirst ihsecond => exact ihfirst.seq ihsecond
  | alt hfirst hsecond ihfirst ihsecond => exact ihfirst.alt ihsecond
  | iterate quantifier hbody ih => exact ih.iterate quantifier
  | look negated hbody ih => exact ih.look negated

theorem Resembles.findSome?_eq {left right : Node} (hnodes : left.Resembles right) {β : Type}
    (f : Cursor text → Option β) (c : Cursor text) : left.findSome? f c = right.findSome? f c :=
  calc
    left.findSome? f c = (left.ends c).findSome? f := by
      rw [findSome?_eq_findSome?_reached, left.sameFirst_reached c]
    _ = (right.ends c).findSome? f := hnodes text c β f
    _ = right.findSome? f c := by
      rw [findSome?_eq_findSome?_reached, right.sameFirst_reached c]

end Node

/-- Patterns whose trees resemble each other cannot be told apart. -/
theorem Pattern.alike_of_resembles {left right : Pattern}
    (hroot : left.root.Resembles right.root) : left.Alike right := by
  intro text
  have hend : ∀ c : Cursor text, left.endFrom? c = right.endFrom? c :=
    fun c => hroot.findSome?_eq some c
  refine ⟨?_, ?_, ?_⟩
  · intro offset
    rw [matchAt, matchAt, funext hend]
  · simp only [find, hend]
  · rw [isFullMatch, isFullMatch, hroot.findSome?_eq]

end EmojiPatterns
