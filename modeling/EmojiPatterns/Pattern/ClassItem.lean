import EmojiPatterns.Pattern.Escape

/-!
# Items of classes

Between the brackets of a class stand characters, ranges of characters and escapes.  A hyphen makes
a range unless the class ends right after it, and no range starts at a property.  Main statement:
an item takes at least one character (`ClassItem.read_endsAfter`).
-/

namespace EmojiPatterns

/-- One item between the brackets of a class. -/
inductive ClassItem where
  /-- The characters from `lo` to `hi`, which is not below `lo`. -/
  | range (lo hi : Char)
  | property (reference : PropertyReference)
deriving DecidableEq

variable {source : List Char}

namespace ClassItem

/-- The item for a range that ends at a cursor. -/
def ofRange (begin : Nat) (lo hi : Char) (c : Cursor source) : Reading ClassItem source :=
  if lo ≤ hi then .read (.range lo hi) c
  else .broken none ⟨.rangeOutOfOrder, ⟨begin, c.offset⟩⟩

/-- Reads what follows the character `lo`: the upper end of a range if there is a hyphen, unless the
class ends right after it.  A property cannot be the upper end, but it is noted before that is
reported. -/
def readUpper (classBegin begin : Nat) (negated : Bool) (lo : Char) (c : Cursor source) :
    Reading ClassItem source :=
  match c.next? with
  | some ('-', d) =>
    match d.next? with
    | some (']', _) => .read (.range lo lo) c
    | none => .broken none ⟨.unclosedClass, ⟨classBegin, d.offset⟩⟩
    | some ('\\', e) =>
      match Escape.read d.offset (.characterClass negated) e with
      | .read (.inr hi) f => ofRange begin lo hi f
      | .read (.inl reference) f =>
        .broken (some (.property reference)) ⟨.rangeToProperty, ⟨begin, f.offset⟩⟩
      | .broken _ error => .broken none error
    | some (hi, e) => ofRange begin lo hi e
  | _ => .read (.range lo lo) c

/-- Reads one item of a class that starts at `classBegin`. -/
def read (classBegin : Nat) (negated : Bool) (c : Cursor source) : Reading ClassItem source :=
  match c.next? with
  | none => .broken none ⟨.unclosedClass, ⟨classBegin, c.offset⟩⟩
  | some ('\\', d) =>
    match Escape.read c.offset (.characterClass negated) d with
    | .read (.inl reference) e => .read (.property reference) e
    | .read (.inr lo) e => readUpper classBegin c.offset negated lo e
    | .broken _ error => .broken none error
  | some (lo, d) => readUpper classBegin c.offset negated lo d

theorem ofRange_endsAfter {begin : Nat} {lo hi : Char} {c d : Cursor source} (hlt : c < d) :
    (ofRange begin lo hi d).EndsAfter c := by
  unfold ofRange
  split
  · exact hlt
  · trivial

theorem readUpper_endsAfter (classBegin begin : Nat) (negated : Bool) (lo : Char)
    {c d : Cursor source} (hlt : c < d) :
    (readUpper classBegin begin negated lo d).EndsAfter c := by
  unfold readUpper
  split
  · next e hhyphen =>
    have he := Cursor.lt_trans hlt (Cursor.lt_of_next?_eq_some hhyphen)
    split
    · exact hlt
    · trivial
    · next f hnext =>
      have hf := Cursor.lt_trans he (Cursor.lt_of_next?_eq_some hnext)
      have hread := Escape.read_endsAfter e.offset (.characterClass negated) f
      revert hread
      cases Escape.read e.offset (.characterClass negated) f with
      | read value g =>
        intro hread
        cases value with
        | inl reference => trivial
        | inr hi => exact ofRange_endsAfter (Cursor.lt_trans hf hread)
      | broken => exact fun _ => trivial
    · next hi f _ _ hnext =>
      exact ofRange_endsAfter (Cursor.lt_trans he (Cursor.lt_of_next?_eq_some hnext))
  · exact hlt

theorem read_endsAfter (classBegin : Nat) (negated : Bool) (c : Cursor source) :
    (read classBegin negated c).EndsAfter c := by
  unfold read
  split
  · trivial
  · next d hnext =>
    have hd := Cursor.lt_of_next?_eq_some hnext
    have hread := Escape.read_endsAfter c.offset (.characterClass negated) d
    revert hread
    cases Escape.read c.offset (.characterClass negated) d with
    | read value e =>
      intro hread
      have he := Cursor.lt_trans hd hread
      cases value with
      | inl reference => exact he
      | inr lo => exact readUpper_endsAfter classBegin c.offset negated lo he
    | broken => exact fun _ => trivial
  · next lo d _ hnext =>
    exact readUpper_endsAfter classBegin c.offset negated lo (Cursor.lt_of_next?_eq_some hnext)

/-- Reads the items up to the bracket that closes the class: those that were read, and the place
after the bracket or the fault. -/
def readAll (classBegin : Nat) (negated : Bool) (c : Cursor source) :
    List ClassItem × Except SyntaxError (Cursor source) :=
  match c.next? with
  | some (']', d) => ([], .ok d)
  | _ =>
    match _hread : read classBegin negated c with
    | .broken kept error => (kept.toList, .error error)
    | .read item d =>
      let (items, result) := readAll classBegin negated d
      (item :: items, result)
termination_by c.ahead.length
decreasing_by
  have hlt := read_endsAfter classBegin negated c
  rw [_hread] at hlt
  exact Cursor.ahead_length_lt hlt

theorem lt_of_readAll {classBegin : Nat} {negated : Bool} {c d : Cursor source}
    {items : List ClassItem} (hread : readAll classBegin negated c = (items, .ok d)) : c < d := by
  fun_induction readAll classBegin negated c generalizing items with
  | case1 c e hnext =>
    simp only [Prod.mk.injEq, Except.ok.injEq] at hread
    exact hread.2 ▸ Cursor.lt_of_next?_eq_some hnext
  | case2 => simp at hread
  | case3 c item e hitem rest result hrest _ ih =>
    have hlt := read_endsAfter classBegin negated c
    rw [hitem] at hlt
    simp only [Prod.mk.injEq] at hread
    exact Cursor.lt_trans hlt (ih (by rw [hrest, hread.2]))

end ClassItem

end EmojiPatterns
