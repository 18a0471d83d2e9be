import EmojiPatterns.Pattern.Error
import EmojiPatterns.Text.Cursor

/-!
# Outcomes of reading

Each part of a pattern's text is read by a function from a cursor to a `Reading`.  Reading goes on
only as long as it comes further, which `Reading.EndsAfter` states.
-/

namespace EmojiPatterns

/-- The outcome of reading a value: the place after it, or a fault and what had been read of the
value by then. -/
inductive Reading (α : Type) (source : List Char) where
  | read (value : α) (after : Cursor source)
  | broken (kept : Option α) (error : SyntaxError)

variable {source : List Char}

namespace Reading

/-- Whether what was read, if anything was, ends after a cursor. -/
def EndsAfter {α : Type} (c : Cursor source) : Reading α source → Prop
  | read _ d => c < d
  | broken _ _ => True

/-- Makes a value of another kind from what was read. -/
def map {α β : Type} (f : α → β) : Reading α source → Reading β source
  | read value c => read (f value) c
  | broken kept error => broken (kept.map f) error

theorem EndsAfter.map {α β : Type} {f : α → β} {c : Cursor source} {reading : Reading α source}
    (hends : reading.EndsAfter c) : (reading.map f).EndsAfter c := by
  cases reading with
  | read => exact hends
  | broken => trivial

theorem EndsAfter.of_lt {α : Type} {c d : Cursor source} {reading : Reading α source}
    (hends : reading.EndsAfter d) (hlt : c < d) : reading.EndsAfter c := by
  cases reading with
  | read => exact Cursor.lt_trans hlt hends
  | broken => trivial

end Reading

end EmojiPatterns
