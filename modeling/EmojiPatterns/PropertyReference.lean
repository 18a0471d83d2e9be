import EmojiPatterns.Text.Numeral

/-!
# References to properties

An escape such as `\p{Name}` refers to a property by name.  A property of strings may stand only
where a run of any number of characters can be matched: not in a class, and not negated.
-/

namespace EmojiPatterns

/-- A part of a text from one byte offset up to another. -/
structure Span where
  start : Nat
  stop : Nat
deriving DecidableEq

namespace Span

def toString (span : Span) : String :=
  Numeral.decimal span.start ++ ".." ++ Numeral.decimal span.stop

end Span

/-- Where an escape stands. -/
inductive Enclosure where
  | topLevel
  | characterClass (negated : Bool)
deriving DecidableEq

/-- An escape that names a property. -/
structure PropertyReference where
  name : String
  negated : Bool
  enclosure : Enclosure
  span : Span
deriving DecidableEq

/-- Why an escape that names a property is refused. -/
inductive PropertyError where
  | unknown (name : String) (span : Span)
  | negationNotSupported (name : String) (span : Span)
  | notAllowedInClass (name : String) (span : Span)
deriving DecidableEq

namespace PropertyError

def name : PropertyError → String
  | unknown name _ | negationNotSupported name _ | notAllowedInClass name _ => name

def span : PropertyError → Span
  | unknown _ span | negationNotSupported _ span | notAllowedInClass _ span => span

def message : PropertyError → String
  | unknown name span => "unknown Unicode property name `" ++ name ++ "` at " ++ span.toString
  | negationNotSupported name span =>
    "property of strings `" ++ name ++ "` cannot be negated (at " ++ span.toString ++ ")"
  | notAllowedInClass name span =>
    "property of strings `" ++ name ++ "` is not allowed in a character class (at " ++
      span.toString ++ ")"

end PropertyError

namespace PropertyReference

/-- Checks that a property of strings may stand where a reference stands. -/
def validate (reference : PropertyReference) : Except PropertyError Unit :=
  match reference.negated, reference.enclosure with
  | true, _ => .error (.negationNotSupported reference.name reference.span)
  | false, .characterClass true => .error (.negationNotSupported reference.name reference.span)
  | false, .characterClass false => .error (.notAllowedInClass reference.name reference.span)
  | false, .topLevel => .ok ()

end PropertyReference

end EmojiPatterns
