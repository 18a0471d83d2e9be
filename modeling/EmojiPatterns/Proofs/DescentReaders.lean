import EmojiPatterns.Proofs.Descent
import EmojiPatterns.Proofs.PropertyRejections

/-!
# The descent through escapes and classes

At the offset of a cursor the parser that has only the offset does what the readers of tokens do
with the cursor: it is never stuck, it fails with the same fault, and if it goes on, it is at the
offset of the cursor that they come to.  In a class that rests on the references: none of them names
a property of strings that may stand there.  Main statements: `propertyReference_offset`,
`charEscape_offset` and `charClass_offset`.
-/

namespace EmojiPatterns

variable {source : List Char}

/-- The outcome of reading in terms of offsets. -/
def Reading.outcome {α : Type} : Reading α source → Except PatternError (α × Nat)
  | read value d => .ok (value, d.offset)
  | broken _ error => .error (.malformed error)

theorem Cursor.until?_eq_none_iff {stop : Char} {c : Cursor source} :
    c.until? stop = none ↔ stop ∉ c.ahead := by
  constructor
  · intro hnone hmem
    obtain ⟨word, after, hahead, hword⟩ := List.eq_append_cons_of_mem hmem
    rw [← List.singleton_append, ← List.append_assoc] at hahead
    obtain ⟨d, rfl⟩ := exists_ahead_eq hahead
    have hsome : c.until? stop = some (word, d) :=
      until?_eq_some_iff.mpr ⟨hword, by rw [hahead, List.append_assoc]; rfl⟩
    rw [hnone] at hsome
    cases hsome
  · intro hmem
    cases huntil : c.until? stop with
    | none => rfl
    | some found =>
      obtain ⟨word, d⟩ := found
      refine absurd ?_ hmem
      rw [(until?_eq_some_iff.mp huntil).2]
      exact List.mem_append_right _ List.mem_cons_self

namespace Cursor

variable {c d : Cursor source} {x : Char}

theorem offset_of_next? (hnext : c.next? = some (x, d)) : d.offset = c.offset + x.utf8Size :=
  offset_eq_of_ahead_eq (show c.ahead = [x] ++ d.ahead from next?_eq_some_iff.mp hnext)

theorem exists_next?_of_head? (hhead : c.ahead.head? = some x) : ∃ d, c.next? = some (x, d) := by
  obtain ⟨after, hahead⟩ := List.head?_eq_some_iff.mp hhead
  obtain ⟨d, hnext, -⟩ := exists_next?_eq_some hahead
  exact ⟨d, hnext⟩

end Cursor

namespace Descent

open Parse

@[simp]
theorem Parse.bind_apply {α β : Type} (p : Parse α) (f : α → Parse β) (offset : Nat) :
    (p >>= f) offset =
      match p offset with
      | none => none
      | some (.error error) => some (.error error)
      | some (.ok (a, offset)) => f a offset := rfl

@[simp]
theorem Parse.pure_apply {α : Type} (a : α) (offset : Nat) :
    (pure a : Parse α) offset = some (.ok (a, offset)) := rfl

@[simp]
theorem Parse.fail_apply {α : Type} (fault : SyntaxFault) (start stop offset : Nat) :
    (fail fault start stop : Parse α) offset = some (.error (.malformed ⟨fault, ⟨start, stop⟩⟩)) :=
  rfl

@[simp]
theorem Parse.here_apply (offset : Nat) : here offset = some (.ok (offset, offset)) := rfl

@[simp]
theorem Parse.move_apply (bytes offset : Nat) :
    move bytes offset = some (.ok ((), offset + bytes)) := rfl

@[simp]
theorem Parse.lift_apply {α : Type} (result : Except PatternError α) (offset : Nat) :
    lift result offset = some (result.map fun a => (a, offset)) := rfl

@[simp]
theorem Parse.ite_apply {α : Type} (condition : Prop) [Decidable condition] (p q : Parse α)
    (offset : Nat) :
    (if condition then p else q) offset = if condition then p offset else q offset := by
  split <;> rfl

variable {c d : Cursor source}

/-! ### Signs -/

@[simp]
theorem rest_offset (c : Cursor source) :
    rest source c.offset = some (.ok (c.ahead, c.offset)) := by
  obtain ⟨behind, hcut⟩ := c.exists_cut?_eq_some
  rw [rest, hcut]
  rfl

@[simp]
theorem peek_offset (c : Cursor source) :
    peek source c.offset = some (.ok (c.ahead.head?, c.offset)) := by
  simp [peek]

theorem bump_of_next? {x : Char} (hnext : c.next? = some (x, d)) :
    bump source c.offset = some (.ok (some x, d.offset)) := by
  simp [bump, Cursor.next?_eq_some_iff.mp hnext, Cursor.offset_of_next? hnext]

theorem bump_of_atEnd (hend : c.next? = none) :
    bump source c.offset = some (.ok (none, c.offset)) := by
  have hahead : c.ahead = [] := Cursor.next?_eq_none_iff.mp hend
  simp [bump, hahead]

theorem tryConsume_of_ahead {word : List Char} (hahead : c.ahead = word ++ d.ahead) :
    tryConsume source word c.offset = some (.ok (true, d.offset)) := by
  have hoffset := Cursor.offset_eq_of_ahead_eq hahead
  simp [tryConsume, hahead, hoffset]

theorem tryConsume_of_next? {x : Char} (hnext : c.next? = some (x, d)) :
    tryConsume source [x] c.offset = some (.ok (true, d.offset)) :=
  tryConsume_of_ahead (Cursor.next?_eq_some_iff.mp hnext)

theorem tryConsume_of_not {word : List Char} (hahead : ¬word <+: c.ahead) :
    tryConsume source word c.offset = some (.ok (false, c.offset)) := by
  simp [tryConsume, hahead]

theorem tryConsume_of_next?_ne {x : Char} (hnext : ∀ d, c.next? ≠ some (x, d)) (word : List Char) :
    tryConsume source (x :: word) c.offset = some (.ok (false, c.offset)) := by
  apply tryConsume_of_not
  rintro ⟨after, hahead⟩
  obtain ⟨d, hsome, -⟩ := Cursor.exists_next?_eq_some hahead.symm
  exact hnext d hsome

/-! ### Escapes -/

theorem offsetOf?_append {stop : Char} {word : List Char} (hword : stop ∉ word)
    (after : List Char) : offsetOf? stop (word ++ stop :: after) = some (utf8Length word) := by
  induction word with
  | nil => simp [offsetOf?]
  | cons x rest ih =>
    obtain ⟨hne, hrest⟩ : stop ≠ x ∧ stop ∉ rest := by simpa using hword
    simp [offsetOf?, hne.symm, ih hrest]

theorem offsetOf?_eq_none {stop : Char} {text : List Char} (htext : stop ∉ text) :
    offsetOf? stop text = none := by
  induction text with
  | nil => rfl
  | cons x rest ih =>
    obtain ⟨hne, hrest⟩ : stop ≠ x ∧ stop ∉ rest := by simpa using htext
    simp [offsetOf?, hne.symm, ih hrest]

theorem braced_of_until?_eq_none (unclosed : SyntaxFault) (begin : Nat)
    (huntil : c.until? '\x7d' = none) :
    braced source unclosed begin c.offset =
      some (.error (.malformed ⟨unclosed, ⟨begin, utf8Length source⟩⟩)) := by
  simp [braced, offsetOf?_eq_none (Cursor.until?_eq_none_iff.mp huntil)]

/-- What stands between braces is cut out of the source, and one byte behind it is the place behind
the closing brace. -/
theorem braced_of_until? (unclosed : SyntaxFault) (begin : Nat) {word : List Char}
    (huntil : c.until? '\x7d' = some (word, d)) :
    braced source unclosed begin c.offset = some (.ok ((word, utf8Length word), c.offset)) ∧
      d.offset = c.offset + (utf8Length word + 1) := by
  obtain ⟨hword, hahead⟩ := Cursor.until?_eq_some_iff.mp huntil
  constructor
  · have hcut : cut? c.ahead (utf8Length word) = some (word, '\x7d' :: d.ahead) := by
      rw [hahead]
      exact cut?_append _ _
    have hoffset : offsetOf? '\x7d' c.ahead = some (utf8Length word) := by
      rw [hahead]
      exact offsetOf?_append hword _
    simp [braced, hoffset, front, hcut]
  · rw [← List.singleton_append, ← List.append_assoc] at hahead
    rw [Cursor.offset_eq_of_ahead_eq hahead, utf8Length_append]
    rfl

theorem propertyReference_offset (begin : Nat) (negated : Bool) (enclosure : Enclosure)
    (c : Cursor source) :
    propertyReference source begin negated enclosure c.offset =
      some (Escape.readProperty begin negated enclosure c).outcome := by
  rw [Escape.readProperty]
  split
  · next d hopen =>
    have hconsume := tryConsume_of_next? hopen
    split
    · next huntil =>
      simp [propertyReference, hconsume, braced_of_until?_eq_none _ _ huntil, Reading.outcome]
    · next name e huntil =>
      obtain ⟨hbraced, hoffset⟩ := braced_of_until? .unclosedProperty begin huntil
      split
      · next hname =>
        subst hname
        simp [propertyReference, hconsume, hbraced, hoffset, Reading.outcome]
      · next hname =>
        simp [propertyReference, hconsume, hbraced, hname, hoffset, Reading.outcome]
  · next hopen =>
    simp [propertyReference, tryConsume_of_next?_ne hopen [], Reading.outcome]

theorem codePoint_offset (begin : Nat) (c : Cursor source) :
    codePoint source begin c.offset = some (Escape.readCodePoint begin c).outcome := by
  rw [Escape.readCodePoint]
  split
  · next d hopen =>
    have hconsume := tryConsume_of_next? hopen
    split
    · next huntil =>
      simp [codePoint, hconsume, braced_of_until?_eq_none _ _ huntil, Reading.outcome]
    · next digits e huntil =>
      obtain ⟨hbraced, hoffset⟩ := braced_of_until? .unclosedCodePoint begin huntil
      split
      · next x hscalar =>
        simp [codePoint, hconsume, hbraced, hscalar, hoffset, Reading.outcome]
      · next hscalar =>
        simp [codePoint, hconsume, hbraced, hscalar, hoffset, Reading.outcome]
  · next hopen =>
    simp [codePoint, tryConsume_of_next?_ne hopen [], Reading.outcome]

theorem charEscape_offset (begin : Nat) (c : Cursor source) :
    charEscape source begin c.offset = some (Escape.readChar begin c).outcome := by
  rw [Escape.readChar]
  split
  · next hend => simp [charEscape, bump_of_atEnd hend, Reading.outcome]
  · next hnext => simp [charEscape, bump_of_next? hnext, Reading.outcome]
  · next hnext => simp [charEscape, bump_of_next? hnext, Reading.outcome]
  · next hnext => simp [charEscape, bump_of_next? hnext, Reading.outcome]
  · next hnext => simp [charEscape, bump_of_next? hnext, codePoint_offset]
  · next hnext =>
    split
    · next hpunctuation => simp [charEscape, bump_of_next? hnext, Reading.outcome, hpunctuation]
    · next hpunctuation => simp [charEscape, bump_of_next? hnext, Reading.outcome, hpunctuation]

variable {resolver : Resolver}

theorem propertyEscape_offset (resolver : Resolver) (begin : Nat) (negated : Bool)
    (enclosure : Enclosure) (c : Cursor source) :
    propertyEscape source resolver begin negated enclosure c.offset =
      match Escape.readProperty begin negated enclosure c with
      | .read reference d =>
        some ((Draft.resolve resolver reference).map fun node => (node, d.offset))
      | .broken _ error => some (.error (.malformed error)) := by
  cases hread : Escape.readProperty begin negated enclosure c with
  | read reference d => simp [propertyEscape, propertyReference_offset, hread, Reading.outcome]
  | broken kept error => simp [propertyEscape, propertyReference_offset, hread, Reading.outcome]

/-- A letter that announces a name is followed by that name. -/
theorem exists_next?_of_capital? {negated : Bool} (hletter : capital? c.ahead.head? = some negated)
    (begin : Nat) (enclosure : Enclosure) :
    ∃ d x, c.next? = some (x, d) ∧
      Escape.read begin enclosure c = (Escape.readProperty begin negated enclosure d).map .inl := by
  unfold capital? at hletter
  split at hletter
  · next hhead =>
    cases hletter
    obtain ⟨d, hnext⟩ := Cursor.exists_next?_of_head? hhead
    exact ⟨d, 'p', hnext, by simp only [Escape.read, hnext]⟩
  · next hhead =>
    cases hletter
    obtain ⟨d, hnext⟩ := Cursor.exists_next?_of_head? hhead
    exact ⟨d, 'P', hnext, by simp only [Escape.read, hnext]⟩
  · cases hletter

theorem read_of_capital?_eq_none (hletter : capital? c.ahead.head? = none) (begin : Nat)
    (enclosure : Enclosure) :
    Escape.read begin enclosure c = (Escape.readChar begin c).map .inr := by
  rw [Escape.read]
  split
  · next d hnext =>
    rw [Cursor.next?_eq_some_iff.mp hnext] at hletter
    cases hletter
  · next d hnext =>
    rw [Cursor.next?_eq_some_iff.mp hnext] at hletter
    cases hletter
  · rfl

/-- What an escape outside of classes stands for. -/
theorem escape_offset (resolver : Resolver) (begin : Nat) (c : Cursor source) :
    escape source resolver begin c.offset =
      match Escape.read begin .topLevel c with
      | .read (.inl reference) d =>
        some ((Draft.resolve resolver reference).map fun node => (node, d.offset))
      | .read (.inr x) d => some (.ok (.char x, d.offset))
      | .broken _ error => some (.error (.malformed error)) := by
  cases hletter : capital? c.ahead.head? with
  | some negated =>
    obtain ⟨d, x, hnext, hread⟩ := exists_next?_of_capital? hletter begin .topLevel
    rw [hread]
    cases hproperty : Escape.readProperty begin negated .topLevel d with
    | read reference e =>
      simp [escape, hletter, bump_of_next? hnext, propertyEscape_offset, hproperty, Reading.map]
    | broken kept error =>
      simp [escape, hletter, bump_of_next? hnext, propertyEscape_offset, hproperty, Reading.map]
  | none =>
    rw [read_of_capital?_eq_none hletter]
    cases hchar : Escape.readChar begin c with
    | read x d => simp [escape, hletter, charEscape_offset, hchar, Reading.map, Reading.outcome]
    | broken kept error =>
      simp [escape, hletter, charEscape_offset, hchar, Reading.map, Reading.outcome]

/-! ### Classes -/

/-- In a class a reference stands for a test, or it is refused. -/
theorem resolve_eq_map_resolveInClass {reference : PropertyReference}
    (hclass : reference.enclosure ≠ .topLevel) :
    Draft.resolve resolver reference =
      (Draft.resolveInClass resolver reference).map fun holds =>
        .set ⟨false, .empty, [holds]⟩ := by
  have hstrings := resolver.resolve_ne_strings hclass
  rw [Draft.resolve, Draft.resolveInClass]
  cases hresolve : resolver.resolve reference with
  | error error => rfl
  | ok resolved =>
    cases resolved with
    | strings name fragment => exact absurd hresolve (hstrings name fragment)
    | chars | unknown => rfl

theorem enclosure_ne_topLevel_of_readProperty {begin : Nat} {capital negated : Bool}
    {reference : PropertyReference}
    (hread : Escape.readProperty begin capital (.characterClass negated) c = .read reference d) :
    reference.enclosure ≠ .topLevel := by
  obtain ⟨name, -, -, rfl⟩ := Escape.readProperty_eq_read_iff.mp hread
  exact nofun

/-- What reading an item of a class makes of a set, in terms of offsets. -/
def itemOutcome (resolver : Resolver) (set : CharSet) :
    Reading ClassItem source → Except PatternError (CharSet × Nat)
  | .read item d => (Draft.addItems resolver set [item]).map fun out => (out, d.offset)
  | .broken kept error =>
    match Draft.addItems resolver set kept.toList with
    | .error refused => .error refused
    | .ok _ => .error (.malformed error)

theorem startsRange_hyphen (after : List Char) :
    startsRange ('-' :: after) = decide (after.head? ≠ some ']') := by
  cases after with
  | nil => rfl
  | cons x after =>
    by_cases hbracket : x = ']'
    · subst hbracket
      rfl
    · have hother : [']'].isPrefixOf (x :: after) = false := by
        simp [List.isPrefixOf, Ne.symm hbracket]
      simp [startsRange, hbracket, hother]

theorem startsRange_eq_false {text : List Char} (hhyphen : text.head? ≠ some '-') :
    startsRange text = false := by
  cases text with
  | nil => rfl
  | cons x after =>
    have hne : '-' ≠ x := fun heq => hhyphen (by rw [heq]; rfl)
    simp [startsRange, hne]

/-- Once its upper end is found, a range that is in order is put into the set. -/
theorem range_of_upper {classBegin itemBegin : Nat} {set : CharSet} {lo hi : Char}
    (hupper : upper source resolver classBegin itemBegin set.negated lo c.offset =
      some (.ok (hi, d.offset))) :
    range source resolver classBegin itemBegin set lo c.offset =
      some (itemOutcome resolver set (ClassItem.ofRange itemBegin lo hi d)) := by
  by_cases hle : lo ≤ hi
  · simp [range, hupper, ClassItem.ofRange, hle, itemOutcome, Draft.addItems, Except.map]
  · simp [range, hupper, ClassItem.ofRange, hle, itemOutcome, Draft.addItems]

theorem range_of_upper_error {classBegin itemBegin : Nat} {set : CharSet} {lo : Char}
    {error : PatternError}
    (hupper : upper source resolver classBegin itemBegin set.negated lo c.offset =
      some (.error error)) :
    range source resolver classBegin itemBegin set lo c.offset = some (.error error) := by
  simp [range, hupper]

theorem range_offset (resolver : Resolver) (classBegin itemBegin : Nat) (set : CharSet) (lo : Char)
    (c : Cursor source) :
    range source resolver classBegin itemBegin set lo c.offset =
      some (itemOutcome resolver set
        (ClassItem.readUpper classBegin itemBegin set.negated lo c)) := by
  have halone : ClassItem.ofRange itemBegin lo lo c = .read (.range lo lo) c :=
    if_pos (Char.le_refl lo)
  rw [ClassItem.readUpper]
  split
  · next d hhyphen =>
    have hstarts := startsRange_hyphen d.ahead
    rw [← Cursor.next?_eq_some_iff.mp hhyphen] at hstarts
    split
    · next f hbracket =>
      rw [Cursor.next?_eq_some_iff.mp hbracket] at hstarts
      rw [← halone]
      exact range_of_upper (by simp [upper, hstarts])
    · next hend =>
      have hd : d.ahead = [] := Cursor.next?_eq_none_iff.mp hend
      rw [hd] at hstarts
      exact range_of_upper_error
        (by simp [upper, hstarts, bump_of_next? hhyphen, bump_of_atEnd hend])
    · next e hbackslash =>
      rw [Cursor.next?_eq_some_iff.mp hbackslash] at hstarts
      cases hletter : capital? e.ahead.head? with
      | some capital =>
        obtain ⟨f, x, hnext, hread⟩ :=
          exists_next?_of_capital? hletter d.offset (.characterClass set.negated)
        rw [hread]
        cases hproperty :
            Escape.readProperty d.offset capital (.characterClass set.negated) f with
        | read reference g =>
          have hclass := enclosure_ne_topLevel_of_readProperty hproperty
          cases hresolve : Draft.resolveInClass resolver reference with
          | error refused =>
            rw [range_of_upper_error]
            · simp [Reading.map, itemOutcome, Draft.addItems, hresolve]
              rfl
            · simp [upper, hstarts, bump_of_next? hhyphen, bump_of_next? hbackslash, hletter,
                bump_of_next? hnext, propertyEscape_offset, hproperty,
                resolve_eq_map_resolveInClass hclass, hresolve, Except.map]
          | ok holds =>
            rw [range_of_upper_error]
            · simp [Reading.map, itemOutcome, Draft.addItems, hresolve]
              rfl
            · simp [upper, hstarts, bump_of_next? hhyphen, bump_of_next? hbackslash, hletter,
                bump_of_next? hnext, propertyEscape_offset, hproperty,
                resolve_eq_map_resolveInClass hclass, hresolve, Except.map]
        | broken kept error =>
          exact range_of_upper_error
            (by simp [upper, hstarts, bump_of_next? hhyphen, bump_of_next? hbackslash, hletter,
              bump_of_next? hnext, propertyEscape_offset, hproperty])
      | none =>
        rw [read_of_capital?_eq_none hletter]
        cases hchar : Escape.readChar d.offset e with
        | read hi f =>
          exact range_of_upper
            (by simp [upper, hstarts, bump_of_next? hhyphen, bump_of_next? hbackslash, hletter,
              charEscape_offset, hchar, Reading.outcome])
        | broken kept error =>
          exact range_of_upper_error
            (by simp [upper, hstarts, bump_of_next? hhyphen, bump_of_next? hbackslash, hletter,
              charEscape_offset, hchar, Reading.outcome])
    · next hi e hbracket hbackslash hnext =>
      have hother : hi ≠ ']' := hbracket
      rw [Cursor.next?_eq_some_iff.mp hnext] at hstarts
      exact range_of_upper
        (by simp [upper, hstarts, hother, bump_of_next? hhyphen, bump_of_next? hnext])
  · next hhyphen =>
    have hstarts : startsRange c.ahead = false := by
      apply startsRange_eq_false
      intro hhead
      obtain ⟨d, hnext⟩ := Cursor.exists_next?_of_head? hhead
      exact hhyphen d hnext
    rw [← halone]
    exact range_of_upper (by simp [upper, hstarts])

/-- One item further in a class, or its fault. -/
theorem classItems_offset_succ (resolver : Resolver) (classBegin steps : Nat) (set : CharSet)
    (hbracket : ∀ d, c.next? ≠ some (']', d)) :
    classItems source resolver classBegin (steps + 1) set c.offset =
      match itemOutcome resolver set (ClassItem.read classBegin set.negated c) with
      | .error error => some (.error error)
      | .ok (out, offset) => classItems source resolver classBegin steps out offset := by
  rw [ClassItem.read]
  cases hnext : c.next? with
  | none => simp [classItems, bump_of_atEnd hnext, itemOutcome, Draft.addItems]
  | some step =>
    obtain ⟨x, d⟩ := step
    by_cases hbackslash : x = '\\'
    · subst hbackslash
      cases hletter : capital? d.ahead.head? with
      | some capital =>
        obtain ⟨e, y, hname, hread⟩ :=
          exists_next?_of_capital? hletter c.offset (.characterClass set.negated)
        simp only [hread]
        cases hproperty : Escape.readProperty c.offset capital (.characterClass set.negated) e with
        | read reference f =>
          have hclass := enclosure_ne_topLevel_of_readProperty hproperty
          cases hresolve : Draft.resolveInClass resolver reference with
          | error refused =>
            simp [classItems, bump_of_next? hnext, hletter, bump_of_next? hname,
              propertyEscape_offset, hproperty, resolve_eq_map_resolveInClass hclass, hresolve,
              Except.map, Reading.map, itemOutcome, Draft.addItems]
          | ok holds =>
            simp [classItems, bump_of_next? hnext, hletter, bump_of_next? hname,
              propertyEscape_offset, hproperty, resolve_eq_map_resolveInClass hclass, hresolve,
              Except.map, Reading.map, itemOutcome, Draft.addItems]
        | broken kept error =>
          simp [classItems, bump_of_next? hnext, hletter, bump_of_next? hname,
            propertyEscape_offset, hproperty, Reading.map, itemOutcome, Draft.addItems]
      | none =>
        simp only [read_of_capital?_eq_none hletter]
        cases hchar : Escape.readChar c.offset d with
        | read lo e =>
          simp only [Reading.map]
          cases houtcome : itemOutcome resolver set
              (ClassItem.readUpper classBegin c.offset set.negated lo e) with
          | error refused =>
            simp [classItems, bump_of_next? hnext, hletter, charEscape_offset, hchar,
              Reading.outcome, range_offset, houtcome]
          | ok out =>
            simp [classItems, bump_of_next? hnext, hletter, charEscape_offset, hchar,
              Reading.outcome, range_offset, houtcome]
        | broken kept error =>
          simp [classItems, bump_of_next? hnext, hletter, charEscape_offset, hchar,
            Reading.outcome, Reading.map, itemOutcome, Draft.addItems]
    · have hother : x ≠ ']' := by
        rintro rfl
        exact hbracket d hnext
      simp only
      cases houtcome : itemOutcome resolver set
          (ClassItem.readUpper classBegin c.offset set.negated x d) with
      | error refused =>
        simp [classItems, bump_of_next? hnext, range_offset, houtcome]
      | ok out => simp [classItems, bump_of_next? hnext, range_offset, houtcome]

theorem addItems_cons (set : CharSet) (item : ClassItem) (items : List ClassItem) :
    Draft.addItems resolver set (item :: items) =
      match Draft.addItems resolver set [item] with
      | .error refused => .error refused
      | .ok out => Draft.addItems resolver out items := by
  cases item with
  | range lo hi => rfl
  | property reference =>
    rw [Draft.addItems, Draft.addItems]
    cases Draft.resolveInClass resolver reference with
    | error refused => rfl
    | ok holds => rfl

theorem negated_of_addItems {set out : CharSet} {items : List ClassItem}
    (hadd : Draft.addItems resolver set items = .ok out) : out.negated = set.negated := by
  fun_induction Draft.addItems resolver set items with
  | case1 set => rw [Except.ok.inj hadd]
  | case2 set lo hi rest ih => exact ih hadd
  | case3 => cases hadd
  | case4 set reference rest holds hholds ih => exact ih hadd

/-- What reading the items of a class makes of a set, in terms of offsets. -/
def classOutcome (resolver : Resolver) (set : CharSet) (items : List ClassItem)
    (result : Except SyntaxError (Cursor source)) : Except PatternError (Node × Nat) :=
  match Draft.addItems resolver set items with
  | .error refused => .error refused
  | .ok out =>
    match result with
    | .ok d => .ok (.set out, d.offset)
    | .error error => .error (.malformed error)

/-- A class is read up to its bracket or its fault in no more steps than characters are ahead. -/
theorem classItems_offset (resolver : Resolver) (classBegin : Nat) {steps : Nat} {set : CharSet}
    {negated : Bool} (hnegated : set.negated = negated) (hsteps : c.ahead.length < steps) :
    classItems source resolver classBegin steps set c.offset =
      some (classOutcome resolver set (ClassItem.readAll classBegin negated c).1
        (ClassItem.readAll classBegin negated c).2) := by
  obtain ⟨steps, rfl⟩ := Nat.exists_eq_add_one.mpr (Nat.zero_lt_of_lt hsteps)
  fun_induction ClassItem.readAll classBegin negated c generalizing set steps with
  | case1 c d hnext => simp [classItems, bump_of_next? hnext, classOutcome, Draft.addItems]
  | case2 c kept error hbroken hbracket =>
    rw [classItems_offset_succ resolver classBegin steps set hbracket, hnegated, hbroken,
      itemOutcome, classOutcome]
    cases Draft.addItems resolver set kept.toList with
    | error refused => rfl
    | ok out => rfl
  | case3 c item d hitem rest result hrest hbracket ih =>
    have hends := ClassItem.read_endsAfter classBegin negated c
    rw [hitem] at hends
    have hlt := Cursor.ahead_length_lt hends
    rw [hrest] at ih
    have hcons := @addItems_cons resolver set item rest
    rw [classItems_offset_succ resolver classBegin steps set hbracket, hnegated, hitem,
      itemOutcome, classOutcome]
    cases hadd : Draft.addItems resolver set [item] with
    | error refused =>
      rw [hadd] at hcons
      simp only [hcons, Except.map]
    | ok out =>
      rw [hadd] at hcons
      obtain ⟨steps, rfl⟩ := Nat.exists_eq_add_one.mpr (show 0 < steps by omega)
      simp only [hcons, Except.map]
      exact ih ((negated_of_addItems hadd).trans hnegated) steps (by omega)

/-- The class behind a bracket is read as its items are. -/
theorem charClass_offset (resolver : Resolver) (begin : Nat) {steps : Nat}
    (hsteps : c.ahead.length < steps) :
    ∃ negated, ∃ d : Cursor source, Token.readSet begin c = Token.readItems begin negated d ∧
      charClass source resolver begin steps c.offset =
        some (classOutcome resolver ⟨negated, .empty, []⟩ (ClassItem.readAll begin negated d).1
          (ClassItem.readAll begin negated d).2) := by
  rw [Token.readSet]
  split
  · next d hcaret =>
    have hconsume := tryConsume_of_next? hcaret
    have hlt := Cursor.ahead_length_lt (Cursor.lt_of_next?_eq_some hcaret)
    refine ⟨true, d, rfl, ?_⟩
    rw [← classItems_offset resolver begin rfl (Nat.lt_trans hlt hsteps)]
    simp [charClass, hconsume]
  · next hcaret =>
    refine ⟨false, c, rfl, ?_⟩
    rw [← classItems_offset resolver begin rfl hsteps]
    simp [charClass, tryConsume_of_next?_ne hcaret []]

end Descent

end EmojiPatterns
