import EmojiPatterns.Pattern.Draft
import EmojiPatterns.Pattern.Match

/-!
# Patterns

A `Pattern` is compiled once and can then be matched at an offset of a text, looked for in a text,
or held against a whole text.  All offsets count bytes.
-/

namespace EmojiPatterns

/-- A compiled pattern. -/
structure Pattern where
  source : List Char
  root : Node

namespace Pattern

/-- Compiles a pattern, whose escapes are resolved by `resolver`. -/
def compile (resolver : Resolver) (source : List Char) : Except PatternError Pattern :=
  (Node.ofText resolver source).map fun root => ⟨source, root⟩

/-- The preferred end of a match from a place. -/
def endFrom? {text : List Char} (pattern : Pattern) (c : Cursor text) : Option (Cursor text) :=
  pattern.root.findSome? some c

/-- The end of the match at an offset.  There is no match inside a character. -/
def matchAt (pattern : Pattern) (text : List Char) (offset : Nat) : Option Nat :=
  ((Cursor.at? text offset).bind pattern.endFrom?).map (·.offset)

/-- The match that starts furthest to the left. -/
def find (pattern : Pattern) (text : List Char) : Option Span :=
  (Cursor.start text).findSome? fun c =>
    (pattern.endFrom? c).map fun d => ⟨c.offset, d.offset⟩

/-- Whether a match can take the whole text. -/
def isFullMatch (pattern : Pattern) (text : List Char) : Bool :=
  (pattern.root.findSome? (fun c => if c.AtEnd then some c else none) (Cursor.start text)).isSome

end Pattern

end EmojiPatterns
