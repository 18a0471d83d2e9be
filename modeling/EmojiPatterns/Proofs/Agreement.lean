import EmojiPatterns.Proofs.PatternEnds
import Mathlib.Data.List.Forall2

/-!
# Trees that agree

Two nodes agree if they lead to the same ends from every place of every text, and a quantifier may
follow both or neither.  Whatever is built from agreeing parts agrees again, and so a part of a tree
can be exchanged for another, at any number of places and under any nodes, without that matching
shows it.  Main statements: `Node.Exchange.agrees`, `Pattern.alike_of_agrees`.
-/

namespace EmojiPatterns

namespace Node

/-- Two nodes that stand for the same wherever a pattern has them. -/
structure Agrees (left right : Node) : Prop where
  steps_eq : ∀ text : List Char, (left.steps : Steps text) = right.steps
  repeatable_eq : left.repeatable = right.repeatable

namespace Agrees

variable {left right left' right' : Node}

protected theorem refl (node : Node) : node.Agrees node :=
  ⟨fun _ => rfl, rfl⟩

protected theorem symm (hnodes : left.Agrees right) : right.Agrees left :=
  ⟨fun text => (hnodes.steps_eq text).symm, hnodes.repeatable_eq.symm⟩

protected theorem trans {mid : Node} (hleft : left.Agrees mid) (hright : mid.Agrees right) :
    left.Agrees right :=
  ⟨fun text => (hleft.steps_eq text).trans (hright.steps_eq text),
    hleft.repeatable_eq.trans hright.repeatable_eq⟩

protected theorem seq (hfirst : left.Agrees left') (hsecond : right.Agrees right') :
    (seq left right).Agrees (seq left' right') := by
  constructor
  · intro text
    rw [steps, hfirst.steps_eq, hsecond.steps_eq, steps]
  · rfl

protected theorem alt (hfirst : left.Agrees left') (hsecond : right.Agrees right') :
    (alt left right).Agrees (alt left' right') := by
  constructor
  · intro text
    rw [steps, hfirst.steps_eq, hsecond.steps_eq, steps]
  · rfl

protected theorem iterate (hbody : left.Agrees right) (quantifier : Quantifier) :
    (iterate left quantifier).Agrees (iterate right quantifier) := by
  constructor
  · intro text
    rw [steps, hbody.steps_eq, steps]
  · rfl

protected theorem look (hbody : left.Agrees right) (negated : Bool) :
    (look left negated).Agrees (look right negated) := by
  constructor
  · intro text
    rw [steps, hbody.steps_eq, steps]
  · rfl

theorem sequence {nodes others : List Node} (hnodes : List.Forall₂ Agrees nodes others) :
    (Node.sequence nodes).Agrees (Node.sequence others) := by
  induction hnodes with
  | nil => exact .refl empty
  | @cons node other nodes others hhead htail ih =>
    cases htail with
    | nil => exact hhead
    | cons hsecond hrest => exact hhead.seq ih

theorem choice {nodes others : List Node} (hnodes : List.Forall₂ Agrees nodes others)
    (hfirst : left.Agrees right) : (Node.choice left nodes).Agrees (Node.choice right others) := by
  induction hnodes generalizing left right with
  | nil => exact hfirst
  | cons hhead htail ih => exact hfirst.alt (ih hhead)

end Agrees

/-- Whether a tree comes from another by putting `new` in the place of `old` somewhere, be it at
no place, at some places or at all of them. -/
inductive Exchange (old new : Node) : Node → Node → Prop where
  | here : Exchange old new old new
  | same (node : Node) : Exchange old new node node
  | seq {first second first' second' : Node} (hfirst : Exchange old new first first')
      (hsecond : Exchange old new second second') :
      Exchange old new (.seq first second) (.seq first' second')
  | alt {first second first' second' : Node} (hfirst : Exchange old new first first')
      (hsecond : Exchange old new second second') :
      Exchange old new (.alt first second) (.alt first' second')
  | iterate {body body' : Node} (quantifier : Quantifier) (hbody : Exchange old new body body') :
      Exchange old new (.iterate body quantifier) (.iterate body' quantifier)
  | look {body body' : Node} (negated : Bool) (hbody : Exchange old new body body') :
      Exchange old new (.look body negated) (.look body' negated)

/-- Exchanging parts that agree makes a tree that agrees. -/
theorem Exchange.agrees {old new left right : Node} (hparts : old.Agrees new)
    (hexchange : Exchange old new left right) : left.Agrees right := by
  induction hexchange with
  | here => exact hparts
  | same node => exact .refl node
  | seq hfirst hsecond ihfirst ihsecond => exact ihfirst.seq ihsecond
  | alt hfirst hsecond ihfirst ihsecond => exact ihfirst.alt ihsecond
  | iterate quantifier hbody ih => exact ih.iterate quantifier
  | look negated hbody ih => exact ih.look negated

end Node

/-- Patterns whose trees agree cannot be told apart. -/
theorem Pattern.alike_of_agrees {left right : Pattern} (hroot : left.root.Agrees right.root) :
    left.Alike right := by
  apply alike_of_ends
  intro text c
  rw [Node.ends, hroot.steps_eq, Node.ends]

end EmojiPatterns
