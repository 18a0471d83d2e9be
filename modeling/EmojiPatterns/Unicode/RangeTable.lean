/-!
# Tables of code point ranges

A property of characters is kept as the ascending list of its inclusive ranges of code points.
Main statement: for an ascending table the early exit of the look-up changes nothing
(`RangeTable.contains_iff`).
-/

namespace EmojiPatterns.Unicode

/-- Inclusive ranges of code points, in ascending order. -/
abbrev RangeTable :=
  List (Nat × Nat)

namespace RangeTable

/-- Looks at the first range that does not end before the character. -/
def contains (table : RangeTable) (c : Char) : Bool :=
  match table.find? fun range => c.toNat ≤ range.2 with
  | some (lo, _) => lo ≤ c.toNat
  | none => false

/-- Each range starts after the one before it has ended. -/
def Ascending (table : RangeTable) : Prop :=
  table.Pairwise fun left right => left.2 < right.1

instance (table : RangeTable) : Decidable table.Ascending :=
  inferInstanceAs (Decidable (table.Pairwise _))

theorem contains_iff {table : RangeTable} (hascending : table.Ascending) (c : Char) :
    table.contains c = true ↔ ∃ range ∈ table, range.1 ≤ c.toNat ∧ c.toNat ≤ range.2 := by
  induction table with
  | nil => simp [contains]
  | cons head rest ih =>
    obtain ⟨hhead, hrest⟩ := List.pairwise_cons.mp hascending
    by_cases hend : c.toNat ≤ head.2
    · simp only [contains, List.find?_cons, hend, decide_true, decide_eq_true_eq]
      constructor
      · exact fun hlo => ⟨head, List.mem_cons_self, hlo, hend⟩
      · rintro ⟨range, hmem, hlo, hhi⟩
        rcases List.mem_cons.mp hmem with rfl | hmem
        · exact hlo
        · have := hhead range hmem
          omega
    · rw [show contains (head :: rest) c = contains rest c by
        simp [contains, hend]]
      rw [ih hrest]
      constructor
      · rintro ⟨range, hmem, hrange⟩
        exact ⟨range, List.mem_cons_of_mem _ hmem, hrange⟩
      · rintro ⟨range, hmem, hrange⟩
        rcases List.mem_cons.mp hmem with rfl | hmem
        · exact absurd hrange.2 hend
        · exact ⟨range, hmem, hrange⟩

end RangeTable

end EmojiPatterns.Unicode
