import EmojiPatterns.Text.Order
import EmojiPatterns.Text.Utf8
import Mathlib.Data.List.Lex

/-!
# The order of bytes is the order of code points

Texts are ordered by their code points.  Their UTF-8 forms, compared byte by byte, are in the same
order: the form of a lower character has a lower byte where the two forms first differ, and neither
form is the start of the other.  So prefixes can be told by their bytes too.  Main statements:
`utf8Bytes_lt_iff`, `nameLT_iff_utf8Bytes_lt`, `utf8Bytes_prefix_iff`.
-/

namespace EmojiPatterns

/-- Bytes that are made of numbers are ordered as these are. -/
theorem ofNat_cons_lt {m n : Nat} {left right : List UInt8} (hm : m < 256) (hn : n < 256)
    (hlt : m < n ∨ m = n ∧ left < right) : UInt8.ofNat m :: left < UInt8.ofNat n :: right := by
  rcases hlt with hfirst | ⟨rfl, hrest⟩
  · apply List.Lex.rel
    rw [UInt8.lt_iff_toNat_lt, UInt8.toNat_ofNat', UInt8.toNat_ofNat']
    omega
  · exact List.Lex.cons hrest

/-- The four lengths of UTF-8 forms.  Behind the first byte each byte holds six binary digits. -/
theorem utf8EncodeChar_cases (c : Char) :
    (c.toNat ≤ 0x7F ∧ String.utf8EncodeChar c = [UInt8.ofNat c.toNat]) ∨
    (0x7F < c.toNat ∧ c.toNat ≤ 0x7FF ∧ String.utf8EncodeChar c =
      [UInt8.ofNat (c.toNat / 64 % 32 + 192), UInt8.ofNat (c.toNat % 64 + 128)]) ∨
    (0x7FF < c.toNat ∧ c.toNat ≤ 0xFFFF ∧ String.utf8EncodeChar c =
      [UInt8.ofNat (c.toNat / 4096 % 16 + 224), UInt8.ofNat (c.toNat / 64 % 64 + 128),
        UInt8.ofNat (c.toNat % 64 + 128)]) ∨
    (0xFFFF < c.toNat ∧ c.toNat < 0x110000 ∧ String.utf8EncodeChar c =
      [UInt8.ofNat (c.toNat / 262144 % 8 + 240), UInt8.ofNat (c.toNat / 4096 % 64 + 128),
        UInt8.ofNat (c.toNat / 64 % 64 + 128), UInt8.ofNat (c.toNat % 64 + 128)]) := by
  have hbound : c.toNat < 0x110000 := by
    rcases c.valid with hlow | ⟨-, hhigh⟩
    · exact Nat.lt_trans hlow (by decide)
    · exact hhigh
  change c.val.toNat < 0x110000 at hbound
  simp only [String.utf8EncodeChar, Char.toNat]
  split
  · next hone => exact .inl ⟨hone, rfl⟩
  · next hone =>
    split
    · next htwo => exact .inr (.inl ⟨by omega, htwo, rfl⟩)
    · next htwo =>
      split
      · next hthree => exact .inr (.inr (.inl ⟨by omega, hthree, rfl⟩))
      · next hthree => exact .inr (.inr (.inr ⟨by omega, hbound, rfl⟩))

/-- A lower character comes first by its bytes already, whatever follows. -/
theorem utf8EncodeChar_append_lt {x y : Char} (hlt : x.toNat < y.toNat)
    (left right : List UInt8) :
    String.utf8EncodeChar x ++ left < String.utf8EncodeChar y ++ right := by
  rcases utf8EncodeChar_cases x with ⟨hx, hleft⟩ | ⟨hx, hx', hleft⟩ | ⟨hx, hx', hleft⟩ |
      ⟨hx, hx', hleft⟩ <;>
    rcases utf8EncodeChar_cases y with ⟨hy, hright⟩ | ⟨hy, hy', hright⟩ | ⟨hy, hy', hright⟩ |
      ⟨hy, hy', hright⟩ <;>
    simp only [hleft, hright, List.cons_append, List.nil_append]
  -- The higher character has no shorter form, and a longer form has a higher first byte.
  all_goals try omega
  all_goals try exact ofNat_cons_lt (by omega) (by omega) (.inl (by omega))
  case inr.inl.inr.inl =>
    apply ofNat_cons_lt (by omega) (by omega)
    by_cases hfirst : x.toNat / 64 = y.toNat / 64
    · exact .inr ⟨by omega, ofNat_cons_lt (by omega) (by omega) (.inl (by omega))⟩
    · exact .inl (by omega)
  case inr.inr.inl.inr.inr.inl =>
    apply ofNat_cons_lt (by omega) (by omega)
    by_cases hfirst : x.toNat / 4096 = y.toNat / 4096
    · refine .inr ⟨by omega, ofNat_cons_lt (by omega) (by omega) ?_⟩
      by_cases hsecond : x.toNat / 64 = y.toNat / 64
      · exact .inr ⟨by omega, ofNat_cons_lt (by omega) (by omega) (.inl (by omega))⟩
      · exact .inl (by omega)
    · exact .inl (by omega)
  case inr.inr.inr.inr.inr.inr =>
    apply ofNat_cons_lt (by omega) (by omega)
    by_cases hfirst : x.toNat / 262144 = y.toNat / 262144
    · refine .inr ⟨by omega, ofNat_cons_lt (by omega) (by omega) ?_⟩
      by_cases hsecond : x.toNat / 4096 = y.toNat / 4096
      · refine .inr ⟨by omega, ofNat_cons_lt (by omega) (by omega) ?_⟩
        by_cases hthird : x.toNat / 64 = y.toNat / 64
        · exact .inr ⟨by omega, ofNat_cons_lt (by omega) (by omega) (.inl (by omega))⟩
        · exact .inl (by omega)
      · exact .inl (by omega)
    · exact .inl (by omega)

theorem utf8Bytes_lt_of_textLT {left right : List Char} (hlt : TextLT left right) :
    utf8Bytes left < utf8Bytes right := by
  unfold TextLT at hlt
  induction hlt with
  | @nil y right =>
    obtain ⟨byte, rest, hbytes⟩ := List.exists_cons_of_ne_nil
      (List.append_ne_nil_of_left_ne_nil (String.utf8EncodeChar_ne_nil (c := y)) (utf8Bytes right))
    change [] < String.utf8EncodeChar y ++ utf8Bytes right
    rw [hbytes]
    exact List.Lex.nil
  | rel hlower => exact utf8EncodeChar_append_lt hlower _ _
  | @cons x left right _ ih => exact List.Lex.append_left _ ih (String.utf8EncodeChar x)

section

variable {α : Type} [LT α] [Std.Asymm (· < · : α → α → Prop)] {f : List Char → List α}
  {left right : List Char}

/-- A form of texts that keeps their order tells it, as one of two texts comes first. -/
theorem lt_iff_textLT (hmono : ∀ {left right}, TextLT left right → f left < f right) :
    f left < f right ↔ TextLT left right := by
  refine ⟨?_, hmono⟩
  intro hlt
  rcases textLT_trichotomy left right with hbefore | rfl | hafter
  · exact hbefore
  · exact absurd hlt (List.lt_irrefl _)
  · exact absurd hlt (List.lt_asymm (hmono hafter))

theorem eq_iff_of_textLT (hmono : ∀ {left right}, TextLT left right → f left < f right) :
    f left = f right ↔ left = right := by
  refine ⟨?_, congrArg f⟩
  intro heq
  rcases textLT_trichotomy left right with hbefore | rfl | hafter
  · exact absurd (heq ▸ hmono hbefore) (List.lt_irrefl _)
  · rfl
  · exact absurd (heq ▸ hmono hafter) (List.lt_irrefl _)

end

/-- Comparing bytes comes to comparing code points. -/
theorem utf8Bytes_lt_iff {left right : List Char} :
    utf8Bytes left < utf8Bytes right ↔ TextLT left right :=
  lt_iff_textLT utf8Bytes_lt_of_textLT

theorem utf8Bytes_inj {left right : List Char} : utf8Bytes left = utf8Bytes right ↔ left = right :=
  eq_iff_of_textLT utf8Bytes_lt_of_textLT

theorem nameLT_iff_utf8Bytes_lt {left right : String} :
    NameLT left right ↔ utf8Bytes left.toList < utf8Bytes right.toList :=
  utf8Bytes_lt_iff.symm

/-! ### Prefixes -/

/-- Different characters differ in their bytes already, whatever follows. -/
theorem utf8EncodeChar_append_inj {x y : Char} {left right : List UInt8}
    (hbytes : String.utf8EncodeChar x ++ left = String.utf8EncodeChar y ++ right) :
    x = y ∧ left = right := by
  rcases Nat.lt_trichotomy x.toNat y.toNat with hlt | heq | hgt
  · have hlower := utf8EncodeChar_append_lt hlt left right
    rw [hbytes] at hlower
    exact absurd hlower (List.lt_irrefl _)
  · rw [Char.toNat_inj] at heq
    subst heq
    exact ⟨rfl, List.append_cancel_left hbytes⟩
  · have hlower := utf8EncodeChar_append_lt hgt right left
    rw [hbytes] at hlower
    exact absurd hlower (List.lt_irrefl _)

/-- The bytes of a text start with those of another exactly if the text starts with the other. -/
theorem utf8Bytes_prefix_iff {left right : List Char} :
    utf8Bytes left <+: utf8Bytes right ↔ left <+: right := by
  constructor
  · intro hprefix
    induction left generalizing right with
    | nil => exact List.nil_prefix
    | cons x left ih =>
      obtain ⟨rest, hrest⟩ := hprefix
      have hbytes : String.utf8EncodeChar x ++ (utf8Bytes left ++ rest) = utf8Bytes right := by
        rw [← hrest, ← List.append_assoc]
        rfl
      cases right with
      | nil =>
        have hnil := (List.append_eq_nil_iff.mp hbytes).1
        exact absurd hnil String.utf8EncodeChar_ne_nil
      | cons y right =>
        have hsplit : String.utf8EncodeChar x ++ (utf8Bytes left ++ rest) =
            String.utf8EncodeChar y ++ utf8Bytes right := hbytes
        obtain ⟨rfl, htail⟩ := utf8EncodeChar_append_inj hsplit
        exact List.cons_prefix_cons.mpr ⟨rfl, ih ⟨rest, htail⟩⟩
  · intro hprefix
    obtain ⟨rest, rfl⟩ := hprefix
    exact ⟨utf8Bytes rest, List.flatMap_append.symm⟩

end EmojiPatterns
