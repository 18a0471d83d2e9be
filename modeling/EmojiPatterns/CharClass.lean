import EmojiPatterns.Unicode.CodePoint

/-!
# Classes of characters

A `CharClass` is a set of characters kept as ascending ranges.  Neighbouring ranges are merged, and
the last character before the surrogates is a neighbour of the first one after them, so each set
has one form.
-/

namespace EmojiPatterns

/-- The characters from `lo` to `hi`; none if `hi` comes before `lo`. -/
structure CharRange where
  lo : Char
  hi : Char
deriving DecidableEq

namespace CharRange

def contains (range : CharRange) (c : Char) : Bool :=
  range.lo ≤ c && c ≤ range.hi

/-- Whether no character is in the range. -/
def isEmpty (range : CharRange) : Bool :=
  range.hi < range.lo

/-- Whether some character lies between the end of one range and the start of a later one. -/
def isApart (left right : CharRange) : Bool :=
  left.hi < right.lo && left.hi.succ? != some right.lo

/-- The least range that holds two others. -/
def join (left right : CharRange) : CharRange :=
  ⟨if left.lo ≤ right.lo then left.lo else right.lo,
    if left.hi ≤ right.hi then right.hi else left.hi⟩

/-- The characters of a range in ascending order. -/
def chars (range : CharRange) : List Char :=
  (List.range' range.lo.toNat (range.hi.toNat + 1 - range.lo.toNat)).filterMap Unicode.scalar?

end CharRange

/-- A set of characters as ascending ranges that do not touch. -/
structure CharClass where
  ranges : List CharRange
deriving DecidableEq

namespace CharClass

def empty : CharClass :=
  ⟨[]⟩

/-- Places a range among ascending ones and joins it with those that it touches. -/
def place (range : CharRange) : List CharRange → List CharRange
  | [] => [range]
  | head :: rest =>
    if head.isApart range then head :: place range rest
    else if range.isApart head then range :: head :: rest
    else place (head.join range) rest

/-- Adds the characters of a range. -/
def insert (cls : CharClass) (range : CharRange) : CharClass :=
  if range.isEmpty then cls else ⟨place range cls.ranges⟩

/-- The characters that lie in one of the ranges.  The ranges are placed from the last one down, so
that each comes to stand at the front. -/
def ofRanges (ranges : List CharRange) : CharClass :=
  (ranges.mergeSort fun left right => left.lo ≤ right.lo).foldr (fun range cls => cls.insert range)
    empty

/-- The given characters. -/
def ofChars (chars : List Char) : CharClass :=
  ofRanges (chars.map fun c => ⟨c, c⟩)

def contains (cls : CharClass) (c : Char) : Bool :=
  cls.ranges.any (·.contains c)

def isEmpty (cls : CharClass) : Bool :=
  cls.ranges.isEmpty

/-- The characters of either class. -/
def union (left right : CharClass) : CharClass :=
  right.ranges.foldl insert left

/-- Every character in ascending order. -/
def chars (cls : CharClass) : List Char :=
  cls.ranges.flatMap CharRange.chars

example :
    ofRanges [⟨'x', 'z'⟩, ⟨'b', 'a'⟩, ⟨'\ue000', '\ue001'⟩, ⟨'u', 'w'⟩, ⟨'\ud7ff', '\ud7ff'⟩] =
    ⟨[⟨'u', 'z'⟩, ⟨'\ud7ff', '\ue001'⟩]⟩ := by cbv

end CharClass

end EmojiPatterns
