import EmojiPatterns.Fragment.LongestFirst
import EmojiPatterns.PropertyReference
import EmojiPatterns.Table
import EmojiPatterns.Text.Quoted
import EmojiPatterns.Unicode.BinaryProperty

/-!
# Resolving references

A reference names a property of strings if the table has a set of that name.  Only if it has not
is the name looked up among the properties of characters.
-/

namespace EmojiPatterns

/-- What a reference turned out to name. -/
inductive Resolved where
  /-- A property of strings that may stand where it is named. -/
  | strings (name : String) (fragment : Fragment)
  /-- A property of characters. -/
  | chars (name : String) (holds : Char → Bool)
  /-- Nothing that is known. -/
  | unknown (name : String)

namespace Resolved

/-- A one-line description: the kind of the property, its quoted name and, for a property of
strings, the number of its alternatives. -/
def describe : Resolved → String
  | strings name fragment =>
    "StringProperty \x7b name: " ++ quoted name ++ ", alternatives: " ++
      Numeral.decimal fragment.alternatives.length ++ " \x7d"
  | chars name _ => "CodePointProperty \x7b name: " ++ quoted name ++ ", .. \x7d"
  | unknown name => "Unknown \x7b name: " ++ quoted name ++ " \x7d"

end Resolved

/-- Where names are looked up, and how sets become fragments. -/
structure Resolver where
  table : Table
  /-- The properties of characters by name. -/
  charProperty? : String → Option (Char → Bool) := Unicode.binaryProperty?
  /-- Whether members of one character are merged into a class. -/
  merge : Bool := true

namespace Resolver

/-- Finds out what a reference names. -/
def resolve (resolver : Resolver) (reference : PropertyReference) :
    Except PropertyError Resolved :=
  match resolver.table.lookup? reference.name with
  | some set =>
    match reference.validate with
    | .error error => .error error
    | .ok () => .ok (.strings reference.name (set.fragment resolver.merge))
  | none =>
    match resolver.charProperty? reference.name with
    | some holds => .ok (.chars reference.name holds)
    | none => .ok (.unknown reference.name)

/-- Finds out what a reference names, and refuses an unknown name. -/
def resolveOrReject (resolver : Resolver) (reference : PropertyReference) :
    Except PropertyError Resolved :=
  match resolver.resolve reference with
  | .ok (.unknown name) => .error (.unknown name reference.span)
  | result => result

end Resolver

end EmojiPatterns
