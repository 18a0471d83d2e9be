import EmojiPatterns.Pattern.ClassItem
import EmojiPatterns.Pattern.Quantifier

/-!
# Tokens

The text of a pattern is cut into tokens: characters, signs, escapes and whole classes.  Names of
properties are only noted here; what they refer to is found out when the tokens become a tree.
The first fault ends the reading, and the tokens before it are kept, because a fault of theirs is
reported first.  Main statement: every token takes at least one character
(`Token.readFrom_endsAfter`).
-/

namespace EmojiPatterns

/-- What a pair of parentheses means. -/
inductive GroupKind where
  | plain
  /-- The text ahead has to match, or has not to. -/
  | look (negated : Bool)
deriving DecidableEq

/-- The smallest part of a pattern that has a meaning. -/
inductive Token where
  | char (c : Char)
  | anyChar
  | textStart
  | textEnd
  | openGroup (kind : GroupKind)
  | closeGroup
  | bar
  | quantifier (quantifier : Quantifier)
  | property (reference : PropertyReference)
  | set (negated : Bool) (items : List ClassItem)
deriving DecidableEq

/-- A token and the part of the source that it is written in. -/
structure PlacedToken where
  token : Token
  span : Span
deriving DecidableEq

variable {source : List Char}

namespace Token

/-- The token that a parenthesis opens, read from behind it. -/
def readGroup (begin : Nat) (c : Cursor source) : Reading Token source :=
  match c.next? with
  | some ('?', d) =>
    match d.next? with
    | some (':', e) => .read (.openGroup .plain) e
    | some ('=', e) => .read (.openGroup (.look false)) e
    | some ('!', e) => .read (.openGroup (.look true)) e
    | _ => .broken none ⟨.unsupportedGroup, ⟨begin, d.offset⟩⟩
  | _ => .read (.openGroup .plain) c

/-- The token of a class, read from its first item on. -/
def readItems (begin : Nat) (negated : Bool) (c : Cursor source) : Reading Token source :=
  match ClassItem.readAll begin negated c with
  | (items, .ok d) => .read (.set negated items) d
  | (items, .error error) => .broken (some (.set negated items)) error

/-- The token of a class, read from behind its bracket. -/
def readSet (begin : Nat) (c : Cursor source) : Reading Token source :=
  match c.next? with
  | some ('^', d) => readItems begin true d
  | _ => readItems begin false c

/-- The token that starts with the character `x`, read from behind that. -/
def readFrom (begin : Nat) (x : Char) (c : Cursor source) : Reading Token source :=
  match x with
  | '.' => .read .anyChar c
  | '^' => .read .textStart c
  | '$' => .read .textEnd c
  | '|' => .read .bar c
  | ')' => .read .closeGroup c
  | '*' => .read (.quantifier .anyNumber) c
  | '+' => .read (.quantifier .oneOrMore) c
  | '?' => .read (.quantifier .atMostOne) c
  | '(' => readGroup begin c
  | '[' => readSet begin c
  | '\\' =>
    (Escape.read begin .topLevel c).map fun
      | .inl reference => .property reference
      | .inr x => .char x
  | x => .read (.char x) c

theorem readGroup_endsAfter {begin : Nat} {c d : Cursor source} (hlt : c < d) :
    (readGroup begin d).EndsAfter c := by
  unfold readGroup
  split
  · next e hnext =>
    have he := Cursor.lt_trans hlt (Cursor.lt_of_next?_eq_some hnext)
    split
    · next hkind => exact Cursor.lt_trans he (Cursor.lt_of_next?_eq_some hkind)
    · next hkind => exact Cursor.lt_trans he (Cursor.lt_of_next?_eq_some hkind)
    · next hkind => exact Cursor.lt_trans he (Cursor.lt_of_next?_eq_some hkind)
    · trivial
  · exact hlt

theorem readItems_endsAfter (begin : Nat) (negated : Bool) (c : Cursor source) :
    (readItems begin negated c).EndsAfter c := by
  unfold readItems
  split
  · next hread => exact ClassItem.lt_of_readAll hread
  · trivial

theorem readSet_endsAfter (begin : Nat) (c : Cursor source) :
    (readSet begin c).EndsAfter c := by
  unfold readSet
  split
  · next d hnext =>
    exact (readItems_endsAfter begin true d).of_lt (Cursor.lt_of_next?_eq_some hnext)
  · exact readItems_endsAfter begin false c

theorem readFrom_endsAfter (begin : Nat) (x : Char) {c d : Cursor source} (hlt : c < d) :
    (readFrom begin x d).EndsAfter c := by
  unfold readFrom
  split
  case h_9 => exact readGroup_endsAfter hlt
  case h_10 => exact (readSet_endsAfter begin d).of_lt hlt
  case h_11 => exact (Escape.read_endsAfter begin .topLevel d).map.of_lt hlt
  all_goals exact hlt

end Token

/-- The tokens of a text up to the first fault, and that fault. -/
structure Tokens where
  tokens : List PlacedToken
  fault : Option SyntaxError

namespace Tokens

/-- The tokens from a place on.  Of a token that is broken, what was read of it is kept. -/
def readAll (c : Cursor source) : Tokens :=
  match _hnext : c.next? with
  | none => ⟨[], none⟩
  | some (x, d) =>
    match _hread : Token.readFrom c.offset x d with
    | .read token e =>
      let rest := readAll e
      ⟨⟨token, ⟨c.offset, e.offset⟩⟩ :: rest.tokens, rest.fault⟩
    | .broken kept error =>
      ⟨kept.toList.map fun token => ⟨token, ⟨c.offset, error.span.stop⟩⟩, some error⟩
termination_by c.ahead.length
decreasing_by
  have hlt := Token.readFrom_endsAfter c.offset x (Cursor.lt_of_next?_eq_some _hnext)
  rw [_hread] at hlt
  exact Cursor.ahead_length_lt hlt

/-- The tokens of a whole text. -/
def ofText (source : List Char) : Tokens :=
  readAll (Cursor.start source)

end Tokens

end EmojiPatterns
