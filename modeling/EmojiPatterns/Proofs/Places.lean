import EmojiPatterns.Text.Cursor

/-!
# Places and what lies ahead of them

A place in a text is determined by the characters ahead of it as much as by its offset, so reading
a character or a word is a statement about those characters.  A search goes through all places from
its start on and stops at the first that gives a value.
-/

namespace EmojiPatterns.Cursor

variable {text : List Char}

theorem offset_add_utf8Length_ahead (c : Cursor text) :
    c.offset + utf8Length c.ahead = utf8Length text := by
  obtain ⟨behind, htext, hoffset⟩ := c.split
  have hlength := congrArg utf8Length htext
  rw [utf8Length_append] at hlength
  omega

theorem offset_le_utf8Length (c : Cursor text) : c.offset ≤ utf8Length text :=
  Nat.le.intro c.offset_add_utf8Length_ahead

/-- The characters ahead determine the cursor. -/
theorem ext_ahead {c d : Cursor text} (hahead : c.ahead = d.ahead) : c = d := by
  have hc := c.offset_add_utf8Length_ahead
  have hd := d.offset_add_utf8Length_ahead
  rw [hahead] at hc
  exact ext_offset (by omega)

theorem atEnd_iff_offset {c : Cursor text} : c.AtEnd ↔ c.offset = utf8Length text := by
  have hlength := c.offset_add_utf8Length_ahead
  change c.ahead = [] ↔ c.offset = utf8Length text
  rw [← utf8Length_eq_zero_iff]
  omega

theorem start_le (c : Cursor text) : start text ≤ c :=
  Nat.zero_le c.offset

theorem offset_eq_of_ahead_eq {c d : Cursor text} {word : List Char}
    (hahead : c.ahead = word ++ d.ahead) : d.offset = c.offset + utf8Length word := by
  have hc := c.offset_add_utf8Length_ahead
  have hd := d.offset_add_utf8Length_ahead
  rw [hahead, utf8Length_append] at hc
  omega

theorem le_of_ahead_eq {c d : Cursor text} {word : List Char}
    (hahead : c.ahead = word ++ d.ahead) : c ≤ d := by
  have hoffset := offset_eq_of_ahead_eq hahead
  rw [le_iff_offset]
  omega

protected theorem le_trans {c d e : Cursor text} (hleft : c ≤ d) (hright : d ≤ e) : c ≤ e :=
  Nat.le_trans hleft hright

protected theorem lt_of_le_of_ne {c d : Cursor text} (hle : c ≤ d) (hne : d ≠ c) : c < d :=
  Nat.lt_of_le_of_ne hle fun hoffset => hne (ext_offset hoffset).symm

/-- A place further on has no more ahead. -/
theorem ahead_length_le {c d : Cursor text} (hle : c ≤ d) : d.ahead.length ≤ c.ahead.length := by
  obtain ⟨between, hahead, -⟩ := ahead_eq_append hle
  rw [hahead, List.length_append]
  exact Nat.le_add_left _ _

/-- Behind every word that lies ahead there is a place. -/
theorem exists_ahead_eq {c : Cursor text} {word rest : List Char}
    (hahead : c.ahead = word ++ rest) : ∃ d : Cursor text, d.ahead = rest := by
  obtain ⟨behind, htext, hoffset⟩ := c.split
  exact ⟨⟨utf8Length (behind ++ word), rest, behind ++ word, by simp [← htext, hahead], rfl⟩, rfl⟩

theorem next?_eq_some_iff {c d : Cursor text} {x : Char} :
    c.next? = some (x, d) ↔ c.ahead = x :: d.ahead := by
  rw [next?]
  split
  · next hnil => simp [hnil]
  · next y rest hcons =>
    constructor
    · intro hpass
      simp only [Option.some.injEq, Prod.mk.injEq] at hpass
      obtain ⟨rfl, rfl⟩ := hpass
      exact hcons
    · intro hahead
      obtain ⟨rfl, hrest⟩ := List.cons.inj (hcons.symm.trans hahead)
      have heq : c.pass y rest hcons = d := ext_ahead hrest
      rw [heq]

theorem advance?_eq_some_iff {c d : Cursor text} {word : List Char} :
    c.advance? word = some d ↔ c.ahead = word ++ d.ahead := by
  induction word generalizing c with
  | nil =>
    constructor
    · intro hsome
      rw [Option.some.inj hsome]
      rfl
    · intro hahead
      exact congrArg some (ext_ahead hahead)
  | cons x rest ih =>
    rw [advance?]
    split
    · next y e hnext =>
      rw [next?_eq_some_iff] at hnext
      rw [hnext, List.cons_append, List.cons.injEq]
      by_cases hx : x = y
      · rw [if_pos hx, ih]
        constructor
        · intro hrest
          exact ⟨hx.symm, hrest⟩
        · intro hboth
          exact hboth.2
      · rw [if_neg hx]
        exact ⟨nofun, fun he => absurd he.1.symm hx⟩
    · next hnone =>
      rw [next?_eq_none_iff.mp hnone]
      exact ⟨nofun, nofun⟩

/-- A word is passed by passing its parts one after another. -/
theorem advance?_append (c : Cursor text) (front back : List Char) :
    c.advance? (front ++ back) = (c.advance? front).bind fun d => d.advance? back := by
  induction front generalizing c with
  | nil => rfl
  | cons x rest ih =>
    rw [List.cons_append, advance?, advance?]
    cases c.next? with
    | none => rfl
    | some step =>
      obtain ⟨y, d⟩ := step
      by_cases hxy : x = y
      · simpa [hxy] using ih d
      · simp [hxy]

/-- Right after a place comes the one behind its next character. -/
theorem le_iff_eq_or_le_of_next? {c d e : Cursor text} {x : Char}
    (hnext : c.next? = some (x, d)) : c ≤ e ↔ c = e ∨ d ≤ e := by
  constructor
  · intro hle
    obtain ⟨between, hahead, -⟩ := ahead_eq_append hle
    rw [next?_eq_some_iff] at hnext
    cases between with
    | nil => exact .inl (ext_ahead hahead)
    | cons y between =>
      rw [hnext, List.cons_append, List.cons.injEq] at hahead
      exact .inr (le_of_ahead_eq hahead.2)
  · rintro (rfl | hle)
    · exact Cursor.le_refl c
    · exact Cursor.le_of_lt (Cursor.lt_of_lt_of_le (lt_of_next?_eq_some hnext) hle)

theorem eq_of_le_of_next?_eq_none {c d : Cursor text} (hnext : c.next? = none) (hle : c ≤ d) :
    c = d := by
  obtain ⟨between, hahead, -⟩ := ahead_eq_append hle
  have hnil : between ++ d.ahead = [] := hahead.symm.trans (next?_eq_none_iff.mp hnext)
  rw [(List.append_eq_nil_iff.mp hnil).1] at hahead
  exact ext_ahead hahead

variable {α : Type} {f : Cursor text → Option α} {c : Cursor text}

/-- A search fails if there is no value at any place from its start on. -/
theorem findSome?_eq_none_iff : c.findSome? f = none ↔ ∀ d, c ≤ d → f d = none := by
  fun_induction findSome? f c with
  | case1 c a hvalue =>
    apply iff_of_false nofun
    intro hnone
    simp [hnone c (Cursor.le_refl c)] at hvalue
  | case2 c hvalue hnext =>
    apply iff_of_true rfl
    intro d hle
    rw [← eq_of_le_of_next?_eq_none hnext hle]
    exact hvalue
  | case3 c hvalue x e hnext ih =>
    rw [ih]
    constructor
    · intro hnone d hle
      rcases (le_iff_eq_or_le_of_next? hnext).mp hle with rfl | hle
      · exact hvalue
      · exact hnone d hle
    · intro hnone d hle
      exact hnone d ((le_iff_eq_or_le_of_next? hnext).mpr (.inr hle))

/-- A search ends at the first place that gives a value. -/
theorem findSome?_eq_some_iff {a : α} :
    c.findSome? f = some a ↔ ∃ d, c ≤ d ∧ f d = some a ∧ ∀ e, c ≤ e → e < d → f e = none := by
  fun_induction findSome? f c with
  | case1 c b hvalue =>
    constructor
    · intro hsome
      refine ⟨c, Cursor.le_refl c, hvalue.trans hsome, ?_⟩
      intro e hle hlt
      exact absurd hlt (Nat.not_lt.mpr hle)
    · intro hsearch
      obtain ⟨d, hle, hfound, hbefore⟩ := hsearch
      rcases Nat.lt_or_eq_of_le hle with hlt | heq
      · have hnone := hbefore c (Cursor.le_refl c) hlt
        simp [hnone] at hvalue
      · rw [ext_offset heq, hfound] at hvalue
        exact hvalue.symm
  | case2 c hvalue hnext =>
    refine ⟨nofun, ?_⟩
    intro hsearch
    obtain ⟨d, hle, hfound, -⟩ := hsearch
    rw [← eq_of_le_of_next?_eq_none hnext hle, hvalue] at hfound
    exact hfound
  | case3 c hvalue x e hnext ih =>
    have hbetween := fun d => le_iff_eq_or_le_of_next? (e := d) hnext
    rw [ih]
    constructor
    · intro hsearch
      obtain ⟨d, hle, hfound, hbefore⟩ := hsearch
      refine ⟨d, (hbetween d).mpr (.inr hle), hfound, ?_⟩
      intro b hcb hlt
      rcases (hbetween b).mp hcb with rfl | heb
      · exact hvalue
      · exact hbefore b heb hlt
    · intro hsearch
      obtain ⟨d, hle, hfound, hbefore⟩ := hsearch
      rcases (hbetween d).mp hle with rfl | hed
      · simp [hvalue] at hfound
      · exact ⟨d, hed, hfound, fun b heb => hbefore b ((hbetween b).mpr (.inr heb))⟩

theorem at?_eq_some_iff {offset : Nat} : at? text offset = some c ↔ c.offset = offset := by
  rw [at?]
  rw [findSome?_eq_some_iff]
  constructor
  · intro hsearch
    obtain ⟨d, -, hfound, -⟩ := hsearch
    split at hfound
    · next hoffset => rw [← Option.some.inj hfound, hoffset]
    · simp at hfound
  · rintro rfl
    refine ⟨c, start_le c, by simp, ?_⟩
    intro e _ hlt
    exact if_neg (Nat.ne_of_lt hlt)

/-- There is a cursor at the offset of each cursor. -/
@[simp]
theorem at?_offset (c : Cursor text) : at? text c.offset = some c :=
  at?_eq_some_iff.mpr rfl

end EmojiPatterns.Cursor
