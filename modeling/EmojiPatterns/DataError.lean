import EmojiPatterns.Sequence
import EmojiPatterns.Version

/-!
# Faults of emoji data

What can be wrong with the sequences that a table is built from, and with a line of a data file.
-/

namespace EmojiPatterns

/-- What is wrong with one line of a data file. -/
inductive LineFault where
  /-- The text after `Version:` is no version. -/
  | version (value : String)
  /-- There is no second field. -/
  | fields
  /-- The second field, which names a property, is empty. -/
  | name
  /-- A text that stands for a code point is no hexadecimal number of 32 bits. -/
  | codePoint (text : String)
  /-- A range ends before it starts. -/
  | range (lo hi : Nat)
deriving DecidableEq

namespace LineFault

def message : LineFault → String
  | version value => "invalid version `" ++ value ++ "`"
  | fields => "expected `code_points ; type_field`"
  | name => "missing type field"
  | codePoint text => "invalid code point `" ++ text ++ "`"
  | range lo hi => "empty range " ++ Numeral.codePoint lo ++ ".." ++ Numeral.codePoint hi

end LineFault

/-- Why data is refused. -/
inductive DataError where
  | emptySet (name : String)
  | duplicateSequence (name : String) (sequence : Sequence)
  | badSequence (error : SequenceError)
  | unsupportedProperty (name : String)
  | versionMismatch (expected found : Version)
  | line (number : Nat) (fault : LineFault)
deriving DecidableEq

namespace DataError

def message : DataError → String
  | emptySet name => "property `" ++ name ++ "` has no sequences"
  | duplicateSequence name sequence =>
    "property `" ++ name ++ "` lists the sequence " ++ sequence.toString ++ " more than once"
  | badSequence error => error.message
  | unsupportedProperty name => "`" ++ name ++ "` is not a supported property of strings"
  | versionMismatch expected found =>
    "data is for Unicode " ++ found.toString ++ ", but the table is pinned to Unicode " ++
      expected.toString
  | line number fault => "line " ++ Numeral.decimal number ++ ": " ++ fault.message

end DataError

end EmojiPatterns
