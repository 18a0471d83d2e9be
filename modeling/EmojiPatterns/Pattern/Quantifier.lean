/-!
# Quantifiers

The signs `*`, `+` and `?` say how often the item before them may be repeated.
-/

namespace EmojiPatterns

/-- How often something may be repeated. -/
structure Quantifier where
  least : Nat
  /-- No number if there is no bound. -/
  most : Option Nat
deriving DecidableEq

namespace Quantifier

/-- `*` -/
def anyNumber : Quantifier := ⟨0, none⟩

/-- `+` -/
def oneOrMore : Quantifier := ⟨1, none⟩

/-- `?` -/
def atMostOne : Quantifier := ⟨0, some 1⟩

end Quantifier

end EmojiPatterns
