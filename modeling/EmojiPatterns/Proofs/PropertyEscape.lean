import EmojiPatterns.Pattern
import EmojiPatterns.Proofs.Places

/-!
# The escape of a property

The shortest pattern that names a property is its escape alone.  It is read as one token, and what
it compiles to is what its reference stands for.  Main statement: `Pattern.compile_escape`.
-/

namespace EmojiPatterns

variable {text : List Char}

namespace Cursor

theorem exists_next?_eq_some {c : Cursor text} {x : Char} {rest : List Char}
    (hahead : c.ahead = x :: rest) : ∃ d, c.next? = some (x, d) ∧ d.ahead = rest := by
  obtain ⟨d, rfl⟩ := exists_ahead_eq (show c.ahead = [x] ++ rest from hahead)
  exact ⟨d, next?_eq_some_iff.mpr hahead, rfl⟩

theorem until?_eq_of_next? {stop x : Char} {c d : Cursor text} (hnext : c.next? = some (x, d)) :
    c.until? stop =
      if x = stop then some ([], d)
      else (d.until? stop).map fun (word, e) => (x :: word, e) := by
  rw [until?]
  split
  · next hnone => simp [hnone] at hnext
  · next hsome =>
    rw [hsome] at hnext
    cases hnext
    rfl

/-- What stands before the first stop is read up to that stop. -/
theorem until?_eq_some_of_ahead_eq {stop : Char} {c d : Cursor text} {word : List Char}
    (hword : stop ∉ word) (hahead : c.ahead = word ++ stop :: d.ahead) :
    c.until? stop = some (word, d) := by
  induction word generalizing c with
  | nil =>
    have hnext : c.next? = some (stop, d) := next?_eq_some_iff.mpr hahead
    rw [until?_eq_of_next? hnext, if_pos rfl]
  | cons x rest ih =>
    obtain ⟨hne, hrest⟩ : stop ≠ x ∧ stop ∉ rest := by simpa using hword
    obtain ⟨e, hnext, he⟩ := exists_next?_eq_some hahead
    rw [until?_eq_of_next? hnext, if_neg (Ne.symm hne), ih hrest he]
    rfl

end Cursor

namespace Tokens

theorem readAll_eq_of_atEnd {c : Cursor text} (hend : c.ahead = []) : readAll c = ⟨[], none⟩ := by
  have hnone : c.next? = none := Cursor.next?_eq_none_iff.mpr hend
  rw [readAll]
  split
  · rfl
  · next hsome => simp [hnone] at hsome

theorem readAll_eq_of_read {c d e : Cursor text} {x : Char} {token : Token}
    (hnext : c.next? = some (x, d)) (hread : Token.readFrom c.offset x d = .read token e) :
    readAll c = ⟨⟨token, ⟨c.offset, e.offset⟩⟩ :: (readAll e).tokens, (readAll e).fault⟩ := by
  rw [readAll]
  split
  · next hnone => simp [hnone] at hnext
  · next hsome =>
    rw [hsome] at hnext
    cases hnext
    split
    · next hsame =>
      rw [hsame] at hread
      cases hread
      rfl
    · next hbroken => simp [hbroken] at hread

end Tokens

namespace PropertyReference

/-- The pattern that is just the escape of a name. -/
def escape (name : String) : List Char :=
  '\\' :: 'p' :: '\x7b' :: (name.toList ++ ['\x7d'])

/-- The reference that stands in the escape of a name. -/
def ofEscape (name : String) : PropertyReference :=
  ⟨name, false, .topLevel, ⟨0, utf8Length (escape name)⟩⟩

/-- The escape of a name is one token, if the name can be told from the brace behind it. -/
theorem tokens_escape {name : String} (hname : name.toList ≠ []) (hbrace : '\x7d' ∉ name.toList) :
    Tokens.ofText (escape name) =
      ⟨[⟨.property (ofEscape name), ⟨0, utf8Length (escape name)⟩⟩], none⟩ := by
  have hstart : (Cursor.start (escape name)).ahead = escape name := rfl
  obtain ⟨afterSlash, hslash, hahead⟩ := Cursor.exists_next?_eq_some hstart
  obtain ⟨afterLetter, hletter, hahead⟩ := Cursor.exists_next?_eq_some hahead
  obtain ⟨inside, hopen, hinside⟩ := Cursor.exists_next?_eq_some hahead
  obtain ⟨after, hafter⟩ := Cursor.exists_ahead_eq
    (show inside.ahead = (name.toList ++ ['\x7d']) ++ [] by rw [hinside, List.append_nil])
  have hclose : inside.until? '\x7d' = some (name.toList, after) :=
    Cursor.until?_eq_some_of_ahead_eq hbrace (by rw [hafter, hinside])
  have hlength : after.offset = utf8Length (escape name) := Cursor.atEnd_iff_offset.mp hafter
  have hread : Token.readFrom 0 '\\' afterSlash = .read (.property (ofEscape name)) after := by
    simp only [Token.readFrom, Escape.read, hletter, Escape.readProperty, hopen, hclose,
      if_neg hname, Reading.map, ofEscape, hlength, String.ofList_toList]
  rw [Tokens.ofText, Tokens.readAll_eq_of_read hslash hread, Tokens.readAll_eq_of_atEnd hafter,
    hlength]
  rfl

end PropertyReference

/-- The escape of a name compiles to what its reference stands for. -/
theorem Pattern.compile_escape (resolver : Resolver) {name : String} (hname : name.toList ≠ [])
    (hbrace : '\x7d' ∉ name.toList) :
    compile resolver (PropertyReference.escape name) =
      (Draft.resolve resolver (.ofEscape name)).map fun node =>
        ⟨PropertyReference.escape name, node⟩ := by
  simp only [compile, Node.ofText, PropertyReference.tokens_escape hname hbrace, Draft.addAll,
    Draft.add]
  cases Draft.resolve resolver (.ofEscape name) with
  | error error => rfl
  | ok node => rfl

end EmojiPatterns
