import EmojiPatterns.Proofs.CodePointFields
import EmojiPatterns.Proofs.Listings
import EmojiPatterns.Proofs.TextLines

/-!
# Files as runs of lines

A file is added line by line: what was added before a line with a fault stays, and the text behind
that line is not looked at.  Of the line itself there stays at most its name, with the characters
of a range up to the first that is none.  Main statement: `SequenceData.adding_is_line_by_line`.
-/

namespace EmojiPatterns

/-! ### Lines that name a property -/

/-- A line gets as far as a name: it declares no version, and its first two fields are `field` and a
name that is not empty. -/
def DataLine.Reaches (line field : List Char) (name : String) : Prop :=
  headerValue? line = none ∧ name ≠ "" ∧ ∃ more, fields line = field :: name.toList :: more

namespace DataLine

/-- A line with two fields is not blank. -/
theorem content_ne_nil {line first second : List Char} {more : List (List Char)}
    (hfields : fields line = first :: second :: more) : trim (line.takeWhile (· ≠ '#')) ≠ [] := by
  intro hblank
  have hsemicolon : ';' ∉ line.takeWhile (· ≠ '#') := by
    intro hmem
    have hwhite := trim_eq_nil_iff.mp hblank ';' hmem
    revert hwhite
    decide
  rw [fields, List.splitOn_eq_singleton hsemicolon] at hfields
  cases hfields

theorem read_eq_entry_iff {line field : List Char} {name : String} :
    read line = .ok (.entry name field) ↔ Reaches line field name := by
  have hname : name = "" ↔ name.toList = [] := by
    rw [← String.toList_inj]
    rfl
  rw [Reaches, read, ne_eq, hname]
  constructor
  · intro hread
    split at hread
    · split at hread <;> cases hread
    · next hheader =>
      split at hread
      · cases hread
      · split at hread
        · next field text more hfields =>
          split at hread
          · cases hread
          · next hne =>
            cases hread
            rw [String.toList_ofList]
            exact ⟨hheader, hne, more, hfields⟩
        · cases hread
  · intro hreaches
    obtain ⟨hheader, hne, more, hfields⟩ := hreaches
    rw [hheader]
    simp only [content_ne_nil hfields, hfields, hne, ↓reduceIte, String.ofList_toList]

end DataLine

namespace DataError

/-- The error of a line that stands some lines further down. -/
def later (count : Nat) : DataError → DataError
  | line number fault => line (number + count) fault
  | error => error

end DataError

namespace SequenceData

variable {data before after middle : SequenceData} {number : Nat} {line : List Char}
  {error : DataError}

/-! ### One line -/

theorem snd_addEntry (data : SequenceData) (number : Nat) (name : String) (field : List Char) :
    (data.addEntry number name field).2 =
      (FieldReading.ofField field).failure.map (FieldReading.errorAt number) := by
  rw [addEntry]
  cases (FieldReading.ofField field).failure with
  | none => rfl
  | some failure => cases failure <;> rfl

/-- What a line does depends on its number only in what is said of its fault. -/
theorem addLine_add (data : SequenceData) (number count : Nat) (line : List Char) :
    data.addLine (number + count) line =
      ((data.addLine number line).1, (data.addLine number line).2.map (·.later count)) := by
  simp only [addLine]
  cases DataLine.read line with
  | error fault => rfl
  | ok statement =>
    cases statement with
    | blank => rfl
    | header version =>
      cases hdeclared : data.version with
      | none => simp [declare, hdeclared]
      | some expected =>
        by_cases hsame : expected = version
        · simp [declare, hdeclared, hsame]
        · simp [declare, hdeclared, hsame, DataError.later]
    | entry name field =>
      apply Prod.ext
      · rfl
      · simp only [snd_addEntry]
        cases (FieldReading.ofField field).failure with
        | none => rfl
        | some failure => cases failure <;> rfl

/-- What a line with a fault leaves behind in the data: nothing, unless it gets as far as a name,
and else that name with what remains of its field. -/
def LeavesBehind (line : List Char) (error : DataError) (before after : SequenceData) : Prop :=
  ((¬ ∃ field name, DataLine.Reaches line field name) ∧ after = before) ∨
    ∃ field name added, DataLine.Reaches line field name ∧
      FieldReading.Remains field error added ∧ after.version = before.version ∧
      after.sequences? name = some ((before.sequences? name).getD [] ++ added) ∧
      ∀ other ≠ name, after.sequences? other = before.sequences? other

theorem leavesBehind_of_addLine (hline : before.addLine number line = (after, some error)) :
    LeavesBehind line error before after := by
  have hunnamed : (∀ name field, DataLine.read line ≠ .ok (.entry name field)) →
      ¬ ∃ field name, DataLine.Reaches line field name := by
    intro hread hreaches
    obtain ⟨field, name, hreaches⟩ := hreaches
    exact hread name field (DataLine.read_eq_entry_iff.mpr hreaches)
  rw [addLine] at hline
  cases hread : DataLine.read line with
  | error fault =>
    simp only [hread, Prod.mk.injEq] at hline
    exact .inl ⟨hunnamed (by simp [hread]), hline.1.symm⟩
  | ok statement =>
    cases statement with
    | blank => simp [hread] at hline
    | header version =>
      refine .inl ⟨hunnamed (by simp [hread]), ?_⟩
      simp only [hread, declare] at hline
      split at hline
      · cases hline
      · split at hline
        · cases hline
        · cases hline
          rfl
    | entry name field =>
      have hadded := snd_addEntry before number name field
      simp only [hread] at hline
      rw [hline] at hadded
      obtain ⟨failure, hfailure, rfl⟩ := Option.map_eq_some_iff.mp hadded.symm
      have hafter : after =
          ⟨before.version, before.lists.append name (FieldReading.ofField field).sequences⟩ :=
        (congrArg Prod.fst hline).symm
      refine .inr ⟨field, name, _, DataLine.read_eq_entry_iff.mp hread,
        FieldReading.remains_of_failure hfailure number, ?_⟩
      subst hafter
      exact ⟨rfl, before.lists.get?_append_self name _,
        fun other hne => before.lists.get?_append_of_ne (Ne.symm hne) _⟩

/-! ### Runs of lines -/

theorem addLines_append (data : SequenceData) (number : Nat) (front back : List (List Char)) :
    data.addLines number (front ++ back) =
      match data.addLines number front with
      | (middle, none) => middle.addLines (number + front.length) back
      | (after, some error) => (after, some error) := by
  induction front generalizing data number with
  | nil => rfl
  | cons line rest ih =>
    rw [List.cons_append, addLines, addLines]
    cases data.addLine number line with
    | mk next fault =>
      cases fault with
      | none =>
        simp only [ih, List.length_cons]
        rw [Nat.add_right_comm, Nat.add_assoc]
      | some error => rfl

theorem addLines_add (data : SequenceData) (number count : Nat) (lines : List (List Char)) :
    data.addLines (number + count) lines =
      ((data.addLines number lines).1, (data.addLines number lines).2.map (·.later count)) := by
  induction lines generalizing data number with
  | nil => rfl
  | cons line rest ih =>
    rw [addLines, addLines, addLine_add]
    cases data.addLine number line with
    | mk next fault =>
      cases fault with
      | none => simpa [Nat.add_right_comm] using ih next (number + 1)
      | some error => rfl

/-- A run that ends with a fault ends at the first line that has one. -/
theorem exists_first_fault {lines : List (List Char)}
    (hlines : data.addLines number lines = (after, some error)) :
    ∃ front line back before, lines = front ++ line :: back ∧
      data.addLines number front = (before, none) ∧
      before.addLine (number + front.length) line = (after, some error) := by
  induction lines generalizing data number with
  | nil => cases hlines
  | cons line rest ih =>
    rw [addLines] at hlines
    split at hlines
    · next next hline =>
      obtain ⟨front, faulty, back, before, rfl, hfront, hfaulty⟩ := ih hlines
      refine ⟨line :: front, faulty, back, before, rfl, ?_, ?_⟩
      · rw [addLines, hline]
        exact hfront
      · rw [List.length_cons, Nat.add_comm front.length, ← Nat.add_assoc]
        exact hfaulty
    · next hline =>
      cases hlines
      exact ⟨[], line, rest, data, rfl, rfl, hline⟩

/-! ### Files -/

/-- A file that goes on behind a closed line is added part after part, the line numbers going on,
and a fault in the first part is all there is.  In any file the first line with a fault follows on
lines that were added, and it leaves behind no more than what was read of its name's list. -/
theorem adding_is_line_by_line (data : SequenceData) :
    (∀ front back, Closed front →
      (∀ after error, data.addFile front = (after, some error) →
        data.addFile (front ++ back) = (after, some error)) ∧
      ∀ middle, data.addFile front = (middle, none) →
        data.addFile (front ++ back) =
          ((middle.addFile back).1,
            (middle.addFile back).2.map (·.later (linesOf front).length))) ∧
    ∀ text after error, data.addFile text = (after, some error) →
      ∃ front line back before, linesOf text = front ++ line :: back ∧
        data.addLines 1 front = (before, none) ∧
        before.addLine (1 + front.length) line = (after, some error) ∧
        LeavesBehind line error before after := by
  constructor
  · intro front back hclosed
    have hlines : data.addFile (front ++ back) =
        data.addLines 1 (linesOf front ++ linesOf back) := by
      rw [addFile, linesOf_append hclosed]
    rw [hlines, addLines_append]
    constructor
    · intro after error hfront
      rw [addFile] at hfront
      rw [hfront]
    · intro middle hfront
      rw [addFile] at hfront
      rw [hfront]
      exact addLines_add middle 1 (linesOf front).length (linesOf back)
  · intro text after error htext
    obtain ⟨front, line, back, before, hlines, hfront, hline⟩ := exists_first_fault htext
    exact ⟨front, line, back, before, hlines, hfront, hline, leavesBehind_of_addLine hline⟩

/-- A line `41 ; A`, and behind it a range that reaches into the surrogates. -/
theorem adding_is_line_by_line_surrogates :
    empty.addFile ("41 ; A\nD7FE..D801 ; B\n".toList ++ "42".toList) =
        ((empty.addFile "41 ; A\nD7FE..D801 ; B\n".toList).1,
          some (.badSequence (.invalidCodePoint 0xD800))) ∧
      empty.addFile ("41 ; A\n".toList ++ "D7FE..D801 ; B\n".toList) =
        (((empty.addFile "41 ; A\n".toList).1.addFile "D7FE..D801 ; B\n".toList).1,
          some (.badSequence (.invalidCodePoint 0xD800))) ∧
      ∃ front line back before, linesOf "41 ; A\nD7FE..D801 ; B\n".toList = front ++ line :: back ∧
        empty.addLines 1 front = (before, none) ∧
        LeavesBehind line (.badSequence (.invalidCodePoint 0xD800)) before
          (empty.addFile "41 ; A\nD7FE..D801 ; B\n".toList).1 := by
  have hfault : empty.addFile "41 ; A\nD7FE..D801 ; B\n".toList =
      ((empty.addFile "41 ; A\nD7FE..D801 ; B\n".toList).1,
        some (.badSequence (.invalidCodePoint 0xD800))) := by
    decide +kernel
  refine ⟨?_, ?_, ?_⟩
  · exact ((adding_is_line_by_line empty).1 _ _ (by decide +kernel)).1 _ _ hfault
  · rw [((adding_is_line_by_line empty).1 "41 ; A\n".toList _ (by decide +kernel)).2
      (empty.addFile "41 ; A\n".toList).1 (by decide +kernel)]
    decide +kernel
  · obtain ⟨front, line, back, before, hlines, hfront, -, hleaves⟩ :=
      (adding_is_line_by_line empty).2 _ _ _ hfault
    exact ⟨front, line, back, before, hlines, hfront, hleaves⟩

end SequenceData

end EmojiPatterns
