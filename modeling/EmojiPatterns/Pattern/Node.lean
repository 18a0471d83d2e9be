import EmojiPatterns.Fragment
import EmojiPatterns.Pattern.Token

/-!
# Trees of patterns

A `Node` is what a pattern means once its escapes are resolved.  Sequencing and choice take two
nodes each; longer runs lean to the right.
-/

namespace EmojiPatterns

/-- A set of characters: those of a class and those with one of some properties, or all others. -/
structure CharSet where
  negated : Bool
  chars : CharClass
  properties : List (Char → Bool)

namespace CharSet

def contains (set : CharSet) (c : Char) : Bool :=
  (set.chars.contains c || set.properties.any fun holds => holds c) != set.negated

end CharSet

/-- What a pattern matches. -/
inductive Node where
  /-- The empty text. -/
  | empty
  | char (c : Char)
  /-- Any character but a line terminator. -/
  | anyChar
  | set (set : CharSet)
  /-- A member of a property of strings. -/
  | strings (fragment : Fragment)
  | seq (first second : Node)
  /-- The first branch, or else the second. -/
  | alt (first second : Node)
  | iterate (body : Node) (quantifier : Quantifier)
  /-- The empty text, where the body matches ahead, or where it does not. -/
  | look (body : Node) (negated : Bool)
  | textStart
  | textEnd

namespace Node

/-- One node after another. -/
def sequence : List Node → Node
  | [] => empty
  | [node] => node
  | node :: rest => seq node (sequence rest)

/-- One of several branches, the earlier ones preferred.  There is always at least one. -/
def choice (first : Node) : List Node → Node
  | [] => first
  | second :: rest => alt first (choice second rest)

/-- Whether a quantifier may follow.  What only looks at its place cannot be repeated. -/
def repeatable : Node → Bool
  | look _ _ | textStart | textEnd => false
  | _ => true

/-- The characters that end a line. -/
def isLineTerminator (c : Char) : Bool :=
  c = '\n' || c = '\r' || c = '\u2028' || c = '\u2029'

end Node

end EmojiPatterns
