import EmojiPatterns.CharClass
import EmojiPatterns.Sequence
import EmojiPatterns.Text.Cursor

/-!
# Fragments

A `Fragment` is a finite set of sequences and single characters to be matched in a fixed order of
preference.  It is what a property of strings becomes inside a pattern.  `ends` lists every place
where a match can end, the preferred one first, and `firstEnd?` looks for the preferred one only.
-/

namespace EmojiPatterns

/-- An ordered choice of sequences and characters. -/
inductive Fragment where
  /-- One sequence. -/
  | literal (sequence : Sequence)
  /-- One character of a class. -/
  | oneOf (cls : CharClass)
  /-- The first choice that matches. -/
  | choice (choices : List Fragment)

namespace Fragment

variable {text : List Char}

/-- The cursor after a character of a class. -/
def afterOneOf? (cls : CharClass) (c : Cursor text) : Option (Cursor text) :=
  match c.next? with
  | some (x, d) => if cls.contains x then some d else none
  | none => none

mutual

/-- The places where a match from a cursor can end, in order of preference. -/
def ends (c : Cursor text) : Fragment → List (Cursor text)
  | literal sequence => (c.advance? sequence.chars).toList
  | oneOf cls => (afterOneOf? cls c).toList
  | choice choices => endsOfAll c choices

/-- The places where a match of one of several fragments can end. -/
def endsOfAll (c : Cursor text) : List Fragment → List (Cursor text)
  | [] => []
  | fragment :: rest => fragment.ends c ++ endsOfAll c rest

end

mutual

/-- The preferred place where a match from a cursor ends. -/
def firstEnd? (c : Cursor text) : Fragment → Option (Cursor text)
  | literal sequence => c.advance? sequence.chars
  | oneOf cls => afterOneOf? cls c
  | choice choices => firstEndOfAll? c choices

/-- The preferred place where a match of the first of several fragments that match ends. -/
def firstEndOfAll? (c : Cursor text) : List Fragment → Option (Cursor text)
  | [] => none
  | fragment :: rest =>
    match fragment.firstEnd? c with
    | some d => some d
    | none => firstEndOfAll? c rest

end

/-- The byte offsets where a match from an offset of a text can end, in order of preference.
There are none if the offset is not on a character boundary. -/
def matchEnds (fragment : Fragment) (text : List Char) (offset : Nat) : List Nat :=
  match Cursor.at? text offset with
  | some c => (fragment.ends c).map (·.offset)
  | none => []

/-- Number of bytes that the preferred match at the start of a text takes. -/
def matchPrefix? (fragment : Fragment) (text : List Char) : Option Nat :=
  (fragment.firstEnd? (Cursor.start text)).map (·.offset)

/-- Whether a match can take the whole text. -/
def accepts (fragment : Fragment) (text : List Char) : Bool :=
  (fragment.ends (Cursor.start text)).any fun c => c.AtEnd

mutual

/-- The characters that match, if every match is of a single character. -/
def singles? : Fragment → Option CharClass
  | literal sequence =>
    if sequence.isSingle then some (CharClass.ofChars [sequence.first]) else none
  | oneOf cls => some cls
  | choice choices => singlesOfAll? choices

/-- The characters that match one of several fragments, if every match is of a single one. -/
def singlesOfAll? : List Fragment → Option CharClass
  | [] => some CharClass.empty
  | fragment :: rest =>
    match fragment.singles?, singlesOfAll? rest with
    | some cls, some others => some (others.union cls)
    | _, _ => none

end

/-- The alternatives at the top, of which a fragment that is no choice is the only one. -/
def alternatives : Fragment → List Fragment
  | choice choices => choices
  | fragment => [fragment]

end Fragment

end EmojiPatterns
