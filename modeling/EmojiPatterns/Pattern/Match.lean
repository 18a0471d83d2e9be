import EmojiPatterns.Pattern.Node
import EmojiPatterns.Pattern.Repetition

/-!
# Matching

A node reaches places in a text from the place where it starts, in order of preference.  `visit`
shows them one by one to a visitor, which may stop the visit.  Looking for the first place that
what follows accepts, and listing all places, are two such visits.

The nodes that take one character step over it with `Cursor.next?`.  That the external decoder of
texts steps by whole characters in the same way is an assumption, which `Text.Cursor` states.
-/

namespace EmojiPatterns.Node

variable {text : List Char}

/-- Shows a place to a visitor if the next character passes a test, namely the place after it.  The
step is that of `Cursor.next?`, with what is assumed there. -/
def visitNext {σ : Type} (test : Char → Bool) (c : Cursor text)
    (visitor : Cursor text → σ → ForInStep σ) (state : σ) : ForInStep σ :=
  match c.next? with
  | some (x, d) => if test x then visitor d state else .yield state
  | none => .yield state

/-- Shows places to a visitor, until it is done. -/
def visitAll {σ : Type} (visitor : Cursor text → σ → ForInStep σ) (state : σ) :
    List (Cursor text) → ForInStep σ
  | [] => .yield state
  | c :: rest =>
    match visitor c state with
    | .done state => .done state
    | .yield state => visitAll visitor state rest

/-- Shows the places that a node reaches from `c` to a visitor, the preferred one first. -/
def visit : Node → {σ : Type} → Cursor text → (Cursor text → σ → ForInStep σ) → σ → ForInStep σ
  | empty, _, c, visitor, state => visitor c state
  | char expected, _, c, visitor, state => visitNext (· = expected) c visitor state
  | anyChar, _, c, visitor, state => visitNext (fun x => !isLineTerminator x) c visitor state
  | set chars, _, c, visitor, state => visitNext chars.contains c visitor state
  | strings fragment, _, c, visitor, state => visitAll visitor state (fragment.ends c)
  | seq first second, _, c, visitor, state => first.visit c (fun d => second.visit d visitor) state
  | alt first second, _, c, visitor, state =>
    match first.visit c visitor state with
    | .done state => .done state
    | .yield state => second.visit c visitor state
  | iterate body quantifier, _, c, visitor, state =>
    Repetition.Loop.run
      ⟨quantifier, fun d => (body.visit d (fun e found => .yield (e :: found)) []).value.reverse⟩
      c visitor state
  | look body negated, _, c, visitor, state =>
    let found := (body.visit c (fun _ _ => .done true) false).value
    if found = negated then .yield state else visitor c state
  | textStart, _, c, visitor, state => if c.offset = 0 then visitor c state else .yield state
  | textEnd, _, c, visitor, state => if c.AtEnd then visitor c state else .yield state

/-- The first value that `f` gives at a place that a node reaches from `c`.  What follows the node
in a pattern is such an `f`. -/
def findSome? {β : Type} (node : Node) (f : Cursor text → Option β) (c : Cursor text) : Option β :=
  (node.visit c (fun d found =>
    match f d with
    | some value => .done (some value)
    | none => .yield found) none).value

/-- Every place that a node reaches from `c`, in order of preference. -/
def reached (node : Node) (c : Cursor text) : List (Cursor text) :=
  (node.visit c (fun d found => .yield (d :: found)) []).value.reverse

end EmojiPatterns.Node
