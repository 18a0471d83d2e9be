/-!
# The order of texts

Sequences and names are ordered by their code points: a text comes before another if it has the
lower code point where they first differ, or ends there.  Main statement: the order is total
(`textLT_trichotomy`).
-/

namespace EmojiPatterns

/-- Whether a text comes before another in the order of code points. -/
def TextLT (left right : List Char) : Prop :=
  List.Lex (fun x y : Char => x.toNat < y.toNat) left right

instance (left right : List Char) : Decidable (TextLT left right) :=
  List.decidableLex (fun x y : Char => x.toNat < y.toNat) left right

theorem textLT_irrefl (text : List Char) : ¬ TextLT text text :=
  @List.lex_irrefl Char (fun x y => x.toNat < y.toNat) (fun _ => Nat.lt_irrefl _) text

theorem textLT_trans {left mid right : List Char} (hleft : TextLT left mid)
    (hright : TextLT mid right) : TextLT left right :=
  List.lex_trans (fun hxy hyz => Nat.lt_trans hxy hyz) hleft hright

theorem textLT_asymm {left right : List Char} (hlt : TextLT left right) : ¬ TextLT right left :=
  fun hgt => textLT_irrefl left (textLT_trans hlt hgt)

/-- Of two texts one comes first, or they are equal. -/
theorem textLT_trichotomy (left right : List Char) :
    TextLT left right ∨ left = right ∨ TextLT right left := by
  induction left generalizing right with
  | nil =>
    cases right with
    | nil => exact .inr (.inl rfl)
    | cons y right => exact .inl .nil
  | cons x left ih =>
    cases right with
    | nil => exact .inr (.inr .nil)
    | cons y right =>
      rcases Nat.lt_trichotomy x.toNat y.toNat with hlt | heq | hgt
      · exact .inl (.rel hlt)
      · rw [Char.toNat_inj] at heq
        subst heq
        rcases ih right with hlt | rfl | hgt
        · exact .inl (.cons hlt)
        · exact .inr (.inl rfl)
        · exact .inr (.inr (.cons hgt))
      · exact .inr (.inr (.rel hgt))

/-- Whether a name comes before another in the order of code points. -/
def NameLT (left right : String) : Prop :=
  TextLT left.toList right.toList

instance (left right : String) : Decidable (NameLT left right) :=
  inferInstanceAs (Decidable (TextLT left.toList right.toList))

theorem nameLT_trans {left mid right : String} (hleft : NameLT left mid)
    (hright : NameLT mid right) : NameLT left right :=
  textLT_trans hleft hright

theorem nameLT_trichotomy (left right : String) :
    NameLT left right ∨ left = right ∨ NameLT right left := by
  rcases textLT_trichotomy left.toList right.toList with hlt | heq | hgt
  · exact .inl hlt
  · exact .inr (.inl (String.toList_injective heq))
  · exact .inr (.inr hgt)

end EmojiPatterns
