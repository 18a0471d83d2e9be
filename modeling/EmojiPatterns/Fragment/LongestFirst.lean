import EmojiPatterns.Fragment
import EmojiPatterns.StringSet

/-!
# From sets to fragments

A set becomes a choice in which every sequence stands before all shorter ones, so a member that is
a prefix of another never hides it.  Members of one character come last, and may be merged into
one class.
-/

namespace EmojiPatterns

namespace Sequence

/-- Whether a sequence is tried before another: the longer first, and in ascending order among
those of one length. -/
def precedes (left right : Sequence) : Bool :=
  right.length < left.length || (left.length == right.length && left ≤ right)

end Sequence

namespace StringSet

/-- The members of more than one character in the order in which they are tried. -/
def longMembers (set : StringSet) : List Sequence :=
  (set.sequences.filter fun sequence => !sequence.isSingle).mergeSort Sequence.precedes

/-- The members of one character. -/
def singleMembers (set : StringSet) : List Sequence :=
  set.sequences.filter Sequence.isSingle

/-- What is tried for the members of one character. -/
def singleChoices (set : StringSet) (merge : Bool) : List Fragment :=
  if set.singleMembers = [] then []
  else if merge then [.oneOf (CharClass.ofChars (set.singleMembers.map Sequence.first))]
  else set.singleMembers.map .literal

/-- The fragment that matches the members, the longest first.  A single alternative stands by
itself. -/
def fragment (set : StringSet) (merge : Bool) : Fragment :=
  match set.longMembers.map .literal ++ set.singleChoices merge with
  | [alternative] => alternative
  | alternatives => .choice alternatives

end StringSet

/-- The fragment of the set of the listed sequences, if they make one. -/
def Fragment.ofList (name : String) (sequences : List Sequence) (merge : Bool) :
    Except DataError Fragment :=
  (StringSet.ofList name sequences).map (·.fragment merge)

end EmojiPatterns
