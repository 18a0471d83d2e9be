import EmojiPatterns.Text.Utf8

/-!
# Positions in a text

A `Cursor text` is a place between two characters of `text`: what lies ahead of it, and how many
bytes lie behind it.  Cursors are the only positions that readers and matchers move over, so an
offset that comes from a cursor is on a character boundary by construction.  Main statements:
the offset determines the cursor (`Cursor.ext_offset`), and a cursor further on has less ahead
(`Cursor.ahead_length_lt`).

How characters are decoded from bytes is left to another library and not modelled.  The assumption
on it is that, asked at a character boundary with text ahead, it gives the one whole character that
begins there and goes on by as many bytes as this character takes up, and that it gives nothing
behind the text.  `Cursor.next?` is that step, for reading patterns and for matching texts alike.
-/

namespace EmojiPatterns

/-- A place between two characters of `text`, counted in bytes. -/
structure Cursor (text : List Char) where
  /-- Number of bytes behind the cursor. -/
  offset : Nat
  /-- The characters that are still to come. -/
  ahead : List Char
  split : ∃ behind, behind ++ ahead = text ∧ utf8Length behind = offset

namespace Cursor

variable {text : List Char}

/-- The place before the first character. -/
def start (text : List Char) : Cursor text :=
  ⟨0, text, [], rfl, rfl⟩

/-- The cursor whose characters ahead are `rest`, one character `x` further on. -/
def pass (c : Cursor text) (x : Char) (rest : List Char) (hahead : c.ahead = x :: rest) :
    Cursor text where
  offset := c.offset + x.utf8Size
  ahead := rest
  split := by
    obtain ⟨behind, htext, hoffset⟩ := c.split
    refine ⟨behind ++ [x], ?_, ?_⟩
    · simp [← htext, hahead]
    · simp [hoffset]

/-- The character at the cursor and the cursor after it.  A decoder of bytes is assumed to take this
step, one character at a time. -/
def next? (c : Cursor text) : Option (Char × Cursor text) :=
  match hahead : c.ahead with
  | [] => none
  | x :: rest => some (x, c.pass x rest hahead)

/-- A cursor behind the whole text. -/
def AtEnd (c : Cursor text) : Prop :=
  c.ahead = []

instance (c : Cursor text) : Decidable c.AtEnd :=
  inferInstanceAs (Decidable (c.ahead = []))

/-- A cursor comes before another if fewer bytes are behind it. -/
instance : LT (Cursor text) :=
  ⟨fun c d => c.offset < d.offset⟩

instance : LE (Cursor text) :=
  ⟨fun c d => c.offset ≤ d.offset⟩

instance (c d : Cursor text) : Decidable (c < d) :=
  inferInstanceAs (Decidable (c.offset < d.offset))

instance (c d : Cursor text) : Decidable (c ≤ d) :=
  inferInstanceAs (Decidable (c.offset ≤ d.offset))

theorem lt_iff_offset {c d : Cursor text} : c < d ↔ c.offset < d.offset := Iff.rfl

theorem le_iff_offset {c d : Cursor text} : c ≤ d ↔ c.offset ≤ d.offset := Iff.rfl

/-- Of two places in one text, the one with fewer bytes behind it sees all that the other sees. -/
theorem ahead_eq_append {c d : Cursor text} (hle : c ≤ d) :
    ∃ between, c.ahead = between ++ d.ahead ∧ c.offset + utf8Length between = d.offset := by
  obtain ⟨left, hleft, hc⟩ := c.split
  obtain ⟨right, hright, hd⟩ := d.split
  rw [le_iff_offset] at hle
  have hboth := hleft.trans hright.symm
  rcases List.append_eq_append_iff.mp hboth with ⟨mid, hmid, hahead⟩ | ⟨mid, hmid, hahead⟩
  · refine ⟨mid, hahead, ?_⟩
    rw [← hc, ← hd, hmid, utf8Length_append]
  · have hzero : utf8Length mid = 0 := by
      have := congrArg utf8Length hmid
      rw [utf8Length_append] at this
      omega
    have hnil := utf8Length_eq_zero_iff.mp hzero
    subst hnil
    refine ⟨[], by simpa using hahead.symm, ?_⟩
    have := congrArg utf8Length hmid
    simp at this ⊢
    omega

/-- The offset determines the cursor. -/
theorem ext_offset {c d : Cursor text} (hoffset : c.offset = d.offset) : c = d := by
  obtain ⟨between, hahead, hlength⟩ := ahead_eq_append (Nat.le_of_eq hoffset : c ≤ d)
  have hnil : between = [] := utf8Length_eq_zero_iff.mp (by omega)
  subst hnil
  cases c; cases d
  simp_all

instance : DecidableEq (Cursor text) := fun c d =>
  if hoffset : c.offset = d.offset then
    .isTrue (ext_offset hoffset)
  else
    .isFalse fun heq => hoffset (congrArg offset heq)

/-- A cursor further on has less ahead. -/
theorem ahead_length_lt {c d : Cursor text} (hlt : c < d) :
    d.ahead.length < c.ahead.length := by
  obtain ⟨between, hahead, hlength⟩ := ahead_eq_append (Nat.le_of_lt hlt : c ≤ d)
  rw [lt_iff_offset] at hlt
  have hne : between ≠ [] := by
    rintro rfl
    simp at hlength
    omega
  have hpos := List.length_pos_iff.mpr hne
  rw [hahead, List.length_append]
  omega

protected theorem lt_trans {c d e : Cursor text} (hleft : c < d) (hright : d < e) : c < e :=
  Nat.lt_trans hleft hright

protected theorem lt_of_le_of_lt {c d e : Cursor text} (hleft : c ≤ d) (hright : d < e) : c < e :=
  Nat.lt_of_le_of_lt hleft hright

protected theorem lt_of_lt_of_le {c d e : Cursor text} (hleft : c < d) (hright : d ≤ e) : c < e :=
  Nat.lt_of_lt_of_le hleft hright

protected theorem le_refl (c : Cursor text) : c ≤ c :=
  Nat.le_refl c.offset

protected theorem le_of_lt {c d : Cursor text} (hlt : c < d) : c ≤ d :=
  Nat.le_of_lt hlt

theorem lt_of_next?_eq_some {c d : Cursor text} {x : Char} (hnext : c.next? = some (x, d)) :
    c < d := by
  unfold next? at hnext
  split at hnext
  · simp at hnext
  · simp only [Option.some.injEq, Prod.mk.injEq] at hnext
    obtain ⟨rfl, rfl⟩ := hnext
    exact Nat.lt_add_of_pos_right (Char.utf8Size_pos _)

theorem next?_eq_none_iff {c : Cursor text} : c.next? = none ↔ c.AtEnd := by
  unfold next? AtEnd
  split <;> simp_all

/-- The first value that `f` gives at the cursor or at one further on. -/
def findSome? {α : Type} (f : Cursor text → Option α) (c : Cursor text) : Option α :=
  match f c with
  | some a => some a
  | none =>
    match _hnext : c.next? with
    | none => none
    | some (_, d) => d.findSome? f
termination_by c.ahead.length
decreasing_by exact ahead_length_lt (lt_of_next?_eq_some _hnext)

/-- The cursor at a byte offset, if that is a character boundary of the text. -/
def at? (text : List Char) (offset : Nat) : Option (Cursor text) :=
  (start text).findSome? fun c => if c.offset = offset then some c else none

/-- The cursor after `word`, if `word` is what comes next. -/
def advance? (c : Cursor text) : List Char → Option (Cursor text)
  | [] => some c
  | x :: rest =>
    match c.next? with
    | some (y, d) => if x = y then d.advance? rest else none
    | none => none

/-- The characters before the next `stop`, and the cursor after that `stop`. -/
def until? (stop : Char) (c : Cursor text) : Option (List Char × Cursor text) :=
  match _hnext : c.next? with
  | none => none
  | some (x, d) =>
    if x = stop then some ([], d)
    else (d.until? stop).map fun (word, e) => (x :: word, e)
termination_by c.ahead.length
decreasing_by exact ahead_length_lt (lt_of_next?_eq_some _hnext)

theorem lt_of_until?_eq_some {stop : Char} {c d : Cursor text} {word : List Char}
    (huntil : c.until? stop = some (word, d)) : c < d := by
  fun_induction until? stop c generalizing word d with
  | case1 => simp at huntil
  | case2 c e hnext =>
    simp only [Option.some.injEq, Prod.mk.injEq] at huntil
    exact huntil.2 ▸ lt_of_next?_eq_some hnext
  | case3 c x e hnext hstop ih =>
    obtain ⟨⟨rest, f⟩, hrest, heq⟩ := Option.map_eq_some_iff.mp huntil
    simp only [Prod.mk.injEq] at heq
    exact Cursor.lt_trans (lt_of_next?_eq_some hnext) (heq.2 ▸ ih hrest)

end Cursor

end EmojiPatterns
