/-!
# UTF-8 lengths and bytes

Texts are lists of Unicode scalar values.  Every offset in this library counts the bytes that
precede a position in the UTF-8 form of the text; this module fixes that count and the bytes
themselves.
-/

namespace EmojiPatterns

/-- Number of bytes in the UTF-8 form of a text. -/
def utf8Length : List Char → Nat
  | [] => 0
  | c :: rest => c.utf8Size + utf8Length rest

/-- The UTF-8 form of a text. -/
def utf8Bytes (text : List Char) : List UInt8 :=
  text.flatMap String.utf8EncodeChar

@[simp]
theorem utf8Length_nil : utf8Length [] = 0 := rfl

@[simp]
theorem utf8Length_cons (c : Char) (rest : List Char) :
    utf8Length (c :: rest) = c.utf8Size + utf8Length rest := rfl

@[simp]
theorem utf8Length_append (left right : List Char) :
    utf8Length (left ++ right) = utf8Length left + utf8Length right := by
  induction left with
  | nil => simp
  | cons c rest ih => simp [ih, Nat.add_assoc]

theorem length_utf8Bytes (text : List Char) :
    (utf8Bytes text).length = utf8Length text := by
  induction text with
  | nil => rfl
  | cons c rest ih =>
    rw [utf8Bytes] at ih
    simp [utf8Bytes, ih]

/-- Every character takes at least one byte, so only the empty text has length zero. -/
theorem utf8Length_eq_zero_iff {text : List Char} : utf8Length text = 0 ↔ text = [] := by
  cases text with
  | nil => simp
  | cons c rest =>
    have hpos := c.utf8Size_pos
    simp only [utf8Length_cons, reduceCtorEq, iff_false]
    omega

end EmojiPatterns
