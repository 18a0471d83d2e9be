import EmojiPatterns.Pattern.Token
import EmojiPatterns.Proofs.Places

/-!
# Where faults are

The readers hand their place on from one to the next, and each fault is reported from the start of
something that was begun up to the place where the reading broke off.  So the part of the source
that a fault is about is never empty and begins and ends between characters.  Main statements:
`Escape.read_breaksOff` and `Tokens.fault_from`.
-/

namespace EmojiPatterns

variable {source : List Char}

theorem Cursor.exists_atEnd (c : Cursor source) :
    ∃ d : Cursor source, c ≤ d ∧ d.offset = utf8Length source := by
  obtain ⟨d, hd⟩ := exists_ahead_eq (c.ahead.append_nil.symm)
  exact ⟨d, le_of_ahead_eq (by rw [hd, List.append_nil]), atEnd_iff_offset.mp hd⟩

/-- A span that is a part of the source from a place on, with at least one character. -/
def Span.From (span : Span) (c : Cursor source) : Prop :=
  ∃ a d : Cursor source, c ≤ a ∧ a < d ∧ span = ⟨a.offset, d.offset⟩

namespace Span.From

variable {span : Span} {c d : Cursor source}

theorem of_le (hspan : span.From d) (hle : c ≤ d) : span.From c := by
  obtain ⟨a, e, hda, hae, heq⟩ := hspan
  exact ⟨a, e, Cursor.le_trans hle hda, hae, heq⟩

/-- The end of a part that begins at a place or later is behind that place. -/
theorem stop_of_start (hspan : span.From c) :
    ∃ e : Cursor source, c < e ∧ span.stop = e.offset := by
  obtain ⟨a, e, hca, hae, rfl⟩ := hspan
  exact ⟨e, Cursor.lt_of_le_of_lt hca hae, rfl⟩

end Span.From

namespace Reading

variable {α β : Type} {begin : Nat} {c d : Cursor source} {reading : Reading α source}

/-- If the reading breaks off then nothing is kept, and the fault goes from `begin` up to a place
not before `c`. -/
def BreaksOff (begin : Nat) (c : Cursor source) : Reading α source → Prop
  | read _ _ => True
  | broken kept error => kept = none ∧ ∃ d : Cursor source, c ≤ d ∧ error.span = ⟨begin, d.offset⟩

/-- If the reading breaks off then the fault is a part of the source from a place on. -/
def FaultFrom (c : Cursor source) : Reading α source → Prop
  | read _ _ => True
  | broken _ error => error.span.From c

theorem BreaksOff.map {f : α → β} (hbreaks : reading.BreaksOff begin c) :
    (reading.map f).BreaksOff begin c := by
  cases reading with
  | read => trivial
  | broken kept error =>
    obtain ⟨rfl, hspan⟩ := hbreaks
    exact ⟨rfl, hspan⟩

theorem BreaksOff.of_le (hbreaks : reading.BreaksOff begin d) (hle : c ≤ d) :
    reading.BreaksOff begin c := by
  cases reading with
  | read => trivial
  | broken kept error =>
    obtain ⟨hkept, e, hde, hspan⟩ := hbreaks
    exact ⟨hkept, e, Cursor.le_trans hle hde, hspan⟩

theorem BreaksOff.faultFrom (hbreaks : reading.BreaksOff c.offset d) (hlt : c < d) :
    reading.FaultFrom c := by
  cases reading with
  | read => trivial
  | broken kept error =>
    obtain ⟨-, e, hde, hspan⟩ := hbreaks
    exact ⟨c, e, Cursor.le_refl c, Cursor.lt_of_lt_of_le hlt hde, hspan⟩

theorem FaultFrom.map {f : α → β} (hfault : reading.FaultFrom c) :
    (reading.map f).FaultFrom c := by
  cases reading with
  | read => trivial
  | broken kept error => exact hfault

theorem FaultFrom.of_le (hfault : reading.FaultFrom d) (hle : c ≤ d) : reading.FaultFrom c := by
  cases reading with
  | read => trivial
  | broken kept error => exact Span.From.of_le hfault hle

end Reading

/-! ### Escapes -/

namespace Escape

theorem readCodePoint_breaksOff (begin : Nat) (c : Cursor source) :
    (readCodePoint begin c).BreaksOff begin c := by
  rw [readCodePoint]
  split
  · next d hopen =>
    have hd := Cursor.le_of_lt (Cursor.lt_of_next?_eq_some hopen)
    split
    · obtain ⟨e, hle, hend⟩ := c.exists_atEnd
      exact ⟨rfl, e, hle, by rw [hend]⟩
    · next digits e hclose =>
      have he := Cursor.le_of_lt (Cursor.lt_of_until?_eq_some hclose)
      split
      · trivial
      · exact ⟨rfl, e, Cursor.le_trans hd he, rfl⟩
  · exact ⟨rfl, c, Cursor.le_refl c, rfl⟩

theorem readChar_breaksOff (begin : Nat) (c : Cursor source) :
    (readChar begin c).BreaksOff begin c := by
  rw [readChar]
  split
  · exact ⟨rfl, c, Cursor.le_refl c, rfl⟩
  · trivial
  · trivial
  · trivial
  · next d hnext =>
    exact (readCodePoint_breaksOff begin d).of_le
      (Cursor.le_of_lt (Cursor.lt_of_next?_eq_some hnext))
  · next x d _ _ _ _ hnext =>
    split
    · trivial
    · exact ⟨rfl, d, Cursor.le_of_lt (Cursor.lt_of_next?_eq_some hnext), rfl⟩

theorem readProperty_breaksOff (begin : Nat) (negated : Bool) (enclosure : Enclosure)
    (c : Cursor source) : (readProperty begin negated enclosure c).BreaksOff begin c := by
  rw [readProperty]
  split
  · next d hopen =>
    have hd := Cursor.le_of_lt (Cursor.lt_of_next?_eq_some hopen)
    split
    · obtain ⟨e, hle, hend⟩ := c.exists_atEnd
      exact ⟨rfl, e, hle, by rw [hend]⟩
    · next name e hclose =>
      have he := Cursor.le_of_lt (Cursor.lt_of_until?_eq_some hclose)
      split
      · exact ⟨rfl, e, Cursor.le_trans hd he, rfl⟩
      · trivial
  · exact ⟨rfl, c, Cursor.le_refl c, rfl⟩

/-- The fault of an escape goes from its backslash up to where the reading broke off. -/
theorem read_breaksOff (begin : Nat) (enclosure : Enclosure) (c : Cursor source) :
    (read begin enclosure c).BreaksOff begin c := by
  rw [read]
  split
  · next d hnext =>
    exact (readProperty_breaksOff begin false enclosure d).map.of_le
      (Cursor.le_of_lt (Cursor.lt_of_next?_eq_some hnext))
  · next d hnext =>
    exact (readProperty_breaksOff begin true enclosure d).map.of_le
      (Cursor.le_of_lt (Cursor.lt_of_next?_eq_some hnext))
  · exact (readChar_breaksOff begin c).map

end Escape

/-! ### Classes -/

namespace ClassItem

variable {a b c : Cursor source}

theorem ofRange_faultFrom {lo hi : Char} (hlt : b < c) :
    (ofRange b.offset lo hi c).FaultFrom b := by
  rw [ofRange]
  split
  · trivial
  · exact ⟨b, c, Cursor.le_refl b, hlt, rfl⟩

/-- The fault of a range begins at the range, at the escape in which it ends, or at the class. -/
theorem readUpper_faultFrom (negated : Bool) (lo : Char) (hclass : a ≤ b) (hitem : b < c) :
    (readUpper a.offset b.offset negated lo c).FaultFrom a := by
  rw [readUpper]
  split
  · next d hhyphen =>
    have hd := Cursor.lt_trans hitem (Cursor.lt_of_next?_eq_some hhyphen)
    split
    · trivial
    · exact ⟨a, d, Cursor.le_refl a, Cursor.lt_of_le_of_lt hclass hd, rfl⟩
    · next e hbackslash =>
      have he := Cursor.lt_of_next?_eq_some hbackslash
      have hbreaks := Escape.read_breaksOff d.offset (.characterClass negated) e
      have hends := Escape.read_endsAfter d.offset (.characterClass negated) e
      cases hread : Escape.read d.offset (.characterClass negated) e with
      | read value f =>
        rw [hread] at hends
        have hf : b < f := Cursor.lt_trans hd (Cursor.lt_trans he hends)
        cases value with
        | inl reference => exact ⟨b, f, hclass, hf, rfl⟩
        | inr hi => exact (ofRange_faultFrom hf).of_le hclass
      | broken kept error =>
        rw [hread] at hbreaks
        exact (hbreaks.faultFrom he).of_le (Cursor.le_trans hclass (Cursor.le_of_lt hd))
    · next hi e _ _ hnext =>
      exact (ofRange_faultFrom (Cursor.lt_trans hd (Cursor.lt_of_next?_eq_some hnext))).of_le hclass
  · trivial

theorem read_faultFrom (negated : Bool) (hclass : a < c) :
    (read a.offset negated c).FaultFrom a := by
  rw [read]
  split
  · exact ⟨a, c, Cursor.le_refl a, hclass, rfl⟩
  · next d hbackslash =>
    have hd := Cursor.lt_of_next?_eq_some hbackslash
    have hbreaks := Escape.read_breaksOff c.offset (.characterClass negated) d
    have hends := Escape.read_endsAfter c.offset (.characterClass negated) d
    cases hread : Escape.read c.offset (.characterClass negated) d with
    | read value e =>
      rw [hread] at hends
      cases value with
      | inl reference => trivial
      | inr lo =>
        exact readUpper_faultFrom negated lo (Cursor.le_of_lt hclass) (Cursor.lt_trans hd hends)
    | broken kept error =>
      rw [hread] at hbreaks
      exact (hbreaks.faultFrom hd).of_le (Cursor.le_of_lt hclass)
  · next lo d _ hnext =>
    exact readUpper_faultFrom negated lo (Cursor.le_of_lt hclass) (Cursor.lt_of_next?_eq_some hnext)

theorem readAll_fault_from (negated : Bool) (hclass : a < c) {error : SyntaxError}
    (hread : (readAll a.offset negated c).2 = .error error) : error.span.From a := by
  generalize hbegin : a.offset = begin at hread
  fun_induction readAll begin negated c with
  | case1 => cases hread
  | case2 c kept fault hbroken =>
    cases hread
    have hfault := read_faultFrom negated hclass
    rw [hbegin, hbroken] at hfault
    exact hfault
  | case3 c item d hitem rest result hrest _ ih =>
    have hends := read_endsAfter begin negated c
    rw [hitem] at hends
    rw [hrest] at ih
    exact ih (Cursor.lt_trans hclass hends) hread

end ClassItem

/-! ### Tokens -/

namespace Token

variable {c d : Cursor source}

theorem readGroup_faultFrom (hlt : c < d) : (readGroup c.offset d).FaultFrom c := by
  rw [readGroup]
  split
  · next e hquestion =>
    split
    · trivial
    · trivial
    · trivial
    · have hbehind := Cursor.lt_trans hlt (Cursor.lt_of_next?_eq_some hquestion)
      exact ⟨c, e, Cursor.le_refl c, hbehind, rfl⟩
  · trivial

theorem readItems_faultFrom (negated : Bool) (hlt : c < d) :
    (readItems c.offset negated d).FaultFrom c := by
  rw [readItems]
  split
  · trivial
  · next items error hread => exact ClassItem.readAll_fault_from negated hlt (by rw [hread])

theorem readFrom_faultFrom (x : Char) (hlt : c < d) : (readFrom c.offset x d).FaultFrom c := by
  unfold readFrom
  split
  case h_9 => exact readGroup_faultFrom hlt
  case h_10 =>
    rw [readSet]
    split
    · next e hcaret =>
      exact readItems_faultFrom true (Cursor.lt_trans hlt (Cursor.lt_of_next?_eq_some hcaret))
    · exact readItems_faultFrom false hlt
  case h_11 => exact ((Escape.read_breaksOff c.offset .topLevel d).faultFrom hlt).map
  all_goals trivial

end Token

/-- The fault of a text is a part of it. -/
theorem Tokens.fault_from {c : Cursor source} {error : SyntaxError}
    (hfault : (readAll c).fault = some error) : error.span.From c := by
  fun_induction readAll c with
  | case1 => cases hfault
  | case2 c x d hnext token e hread rest ih =>
    have hlt := Cursor.lt_of_next?_eq_some hnext
    have hends := Token.readFrom_endsAfter c.offset x hlt
    rw [hread] at hends
    exact (ih hfault).of_le (Cursor.le_of_lt hends)
  | case3 c x d hnext kept fault hbroken =>
    have hfrom := Token.readFrom_faultFrom x (Cursor.lt_of_next?_eq_some hnext)
    rw [hbroken] at hfrom
    cases hfault
    exact hfrom

end EmojiPatterns
