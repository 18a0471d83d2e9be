import EmojiPatterns.PropertyReference

/-!
# Faults of patterns

Why a pattern does not compile: its text breaks the syntax, or an escape names a property that may
not stand there.  Each fault carries the part of the source that it is about.
-/

namespace EmojiPatterns

/-- What is wrong with the text of a pattern. -/
inductive SyntaxFault where
  | unmatchedClose
  | nothingToRepeat
  | unsupportedGroup
  | unclosedGroup
  /-- After `\p` or `\P` there is no brace. -/
  | propertyBrace
  | unclosedProperty
  | emptyPropertyName
  | trailingBackslash
  /-- After `\u` there is no brace. -/
  | codePointBrace
  | unclosedCodePoint
  | invalidCodePoint
  | unknownEscape (c : Char)
  | unclosedClass
  | rangeOutOfOrder
  | rangeToProperty
deriving DecidableEq

namespace SyntaxFault

def message : SyntaxFault → String
  | unmatchedClose => "unmatched ')'"
  | nothingToRepeat => "nothing to repeat"
  | unsupportedGroup => "unsupported group syntax"
  | unclosedGroup => "unclosed group"
  | propertyBrace => "expected '\x7b' after property escape"
  | unclosedProperty => "unclosed property escape"
  | emptyPropertyName => "empty property name"
  | trailingBackslash => "trailing backslash"
  | codePointBrace => "expected '\x7b' after \\u"
  | unclosedCodePoint => "unclosed \\u\x7b...\x7d"
  | invalidCodePoint => "invalid code point"
  | unknownEscape c => "unknown escape '\\" ++ String.singleton c ++ "'"
  | unclosedClass => "unclosed character class"
  | rangeOutOfOrder => "character class range out of order"
  | rangeToProperty => "character class range cannot end in a property escape"

end SyntaxFault

/-- A fault of the syntax and where it is. -/
structure SyntaxError where
  fault : SyntaxFault
  span : Span
deriving DecidableEq

/-- Why a pattern does not compile. -/
inductive PatternError where
  | malformed (error : SyntaxError)
  | property (error : PropertyError)
deriving DecidableEq

namespace PatternError

def span : PatternError → Span
  | malformed error => error.span
  | property error => error.span

def message : PatternError → String
  | malformed error => error.fault.message ++ " at " ++ error.span.toString
  | property error => error.message

end PatternError

end EmojiPatterns
