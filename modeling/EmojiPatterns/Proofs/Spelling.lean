import EmojiPatterns.Proofs.Grammar
import EmojiPatterns.Proofs.PropertyEscape

/-!
# Reading what is spelled

The readers of escapes and of classes accept just what the grammar says how to write, and they stop
right behind it, whatever follows.  Main statements: `Escape.readChar_eq_read_iff`,
`Escape.readProperty_eq_read_iff`, `ClassItem.exists_readAll_eq` and its converse
`ClassItem.spellsAll_of_readAll`.
-/

namespace EmojiPatterns

variable {source : List Char}

namespace Cursor

theorem until?_eq_some_iff {stop : Char} {c d : Cursor source} {word : List Char} :
    c.until? stop = some (word, d) ↔ stop ∉ word ∧ c.ahead = word ++ stop :: d.ahead := by
  refine ⟨?_, fun hahead => until?_eq_some_of_ahead_eq hahead.1 hahead.2⟩
  intro huntil
  fun_induction until? stop c generalizing word d with
  | case1 => simp at huntil
  | case2 c e hnext =>
    simp only [Option.some.injEq, Prod.mk.injEq] at huntil
    obtain ⟨rfl, rfl⟩ := huntil
    exact ⟨List.not_mem_nil, next?_eq_some_iff.mp hnext⟩
  | case3 c x e hnext hstop ih =>
    obtain ⟨⟨rest, f⟩, hrest, heq⟩ := Option.map_eq_some_iff.mp huntil
    simp only [Prod.mk.injEq] at heq
    obtain ⟨rfl, rfl⟩ := heq
    obtain ⟨hmem, hahead⟩ := ih hrest
    refine ⟨?_, ?_⟩
    · simpa [Ne.symm hstop] using hmem
    · rw [next?_eq_some_iff.mp hnext, hahead]
      rfl

end Cursor

theorem Reading.map_eq_read_iff {α β : Type} {f : α → β} {reading : Reading α source} {b : β}
    {d : Cursor source} : reading.map f = .read b d ↔ ∃ a, reading = .read a d ∧ f a = b := by
  cases reading with
  | read a e =>
    simp only [Reading.map, Reading.read.injEq]
    constructor
    · intro hread
      exact ⟨a, ⟨rfl, hread.2⟩, hread.1⟩
    · rintro ⟨b, ⟨rfl, hplace⟩, hvalue⟩
      exact ⟨hvalue, hplace⟩
  | broken kept error => simp [Reading.map]

namespace Escape

theorem readCodePoint_eq_read_iff {begin : Nat} {c d : Cursor source} {x : Char} :
    readCodePoint begin c = .read x d ↔
      ∃ digits value, '\x7d' ∉ digits ∧ Numeral.readCodePoint? digits = some value ∧
        Unicode.scalar? value = some x ∧ c.ahead = '\x7b' :: (digits ++ '\x7d' :: d.ahead) := by
  constructor
  · intro hread
    rw [readCodePoint] at hread
    split at hread
    · next e hopen =>
      split at hread
      · cases hread
      · next digits f huntil =>
        obtain ⟨hdigits, hahead⟩ := Cursor.until?_eq_some_iff.mp huntil
        split at hread
        · next y hscalar =>
          cases hread
          obtain ⟨value, hvalue, hscalar⟩ := Option.bind_eq_some_iff.mp hscalar
          refine ⟨digits, value, hdigits, hvalue, hscalar, ?_⟩
          rw [Cursor.next?_eq_some_iff.mp hopen, hahead]
        · cases hread
    · cases hread
  · intro hspelled
    obtain ⟨digits, value, hdigits, hvalue, hscalar, hahead⟩ := hspelled
    obtain ⟨e, hopen, he⟩ := Cursor.exists_next?_eq_some hahead
    simp only [readCodePoint, hopen, Cursor.until?_eq_some_iff.mpr ⟨hdigits, he⟩, hvalue,
      Option.bind_some, hscalar]

/-- A character is read from behind a backslash just where one is spelled. -/
theorem readChar_eq_read_iff {begin : Nat} {c d : Cursor source} {x : Char} :
    readChar begin c = .read x d ↔ ∃ word, Spells word x ∧ c.ahead = word ++ d.ahead := by
  constructor
  · intro hread
    rw [readChar] at hread
    split at hread
    · cases hread
    · next e hnext =>
      cases hread
      exact ⟨_, .lineFeed, Cursor.next?_eq_some_iff.mp hnext⟩
    · next e hnext =>
      cases hread
      exact ⟨_, .carriageReturn, Cursor.next?_eq_some_iff.mp hnext⟩
    · next e hnext =>
      cases hread
      exact ⟨_, .tab, Cursor.next?_eq_some_iff.mp hnext⟩
    · next e hnext =>
      obtain ⟨digits, value, hdigits, hvalue, hscalar, hahead⟩ :=
        readCodePoint_eq_read_iff.mp hread
      refine ⟨_, .codePoint hdigits hvalue hscalar, ?_⟩
      rw [Cursor.next?_eq_some_iff.mp hnext, hahead]
      simp
    · next y e _ _ _ _ hnext =>
      split at hread
      · next hpunctuation =>
        cases hread
        exact ⟨_, .punctuation hpunctuation, Cursor.next?_eq_some_iff.mp hnext⟩
      · cases hread
  · intro hspelled
    obtain ⟨word, hword, hahead⟩ := hspelled
    cases hword with
    | lineFeed | carriageReturn | tab =>
      rw [readChar, Cursor.next?_eq_some_iff.mpr hahead]
      rfl
    | codePoint hdigits hvalue hscalar =>
      obtain ⟨e, hnext, he⟩ := Cursor.exists_next?_eq_some hahead
      rw [readChar, hnext]
      exact readCodePoint_eq_read_iff.mpr ⟨_, _, hdigits, hvalue, hscalar, by simpa using he⟩
    | punctuation hpunctuation =>
      rw [readChar, Cursor.next?_eq_some_iff.mpr hahead]
      split
      case h_1 hnone => cases hnone
      case h_6 hsome =>
        cases hsome
        rw [if_pos hpunctuation]
      all_goals
        next hsome =>
          cases hsome
          exact absurd hpunctuation (by decide)

/-- A name is read from behind its letter just where one is spelled. -/
theorem readProperty_eq_read_iff {begin : Nat} {negated : Bool} {enclosure : Enclosure}
    {c d : Cursor source} {reference : PropertyReference} :
    readProperty begin negated enclosure c = .read reference d ↔
      ∃ name, IsName name ∧ c.ahead = '\x7b' :: (name ++ '\x7d' :: d.ahead) ∧
        reference = ⟨String.ofList name, negated, enclosure, ⟨begin, d.offset⟩⟩ := by
  constructor
  · intro hread
    rw [readProperty] at hread
    split at hread
    · next e hopen =>
      split at hread
      · cases hread
      · next name f huntil =>
        obtain ⟨hbrace, hahead⟩ := Cursor.until?_eq_some_iff.mp huntil
        split at hread
        · cases hread
        · next hname =>
          cases hread
          refine ⟨name, ⟨hname, hbrace⟩, ?_, rfl⟩
          rw [Cursor.next?_eq_some_iff.mp hopen, hahead]
    · cases hread
  · intro hspelled
    obtain ⟨name, ⟨hname, hbrace⟩, hahead, rfl⟩ := hspelled
    obtain ⟨e, hopen, he⟩ := Cursor.exists_next?_eq_some hahead
    simp only [readProperty, hopen, Cursor.until?_eq_some_iff.mpr ⟨hbrace, he⟩, if_neg hname]

/-- No character is spelled with a letter that announces a name. -/
theorem Spells.ne_of_eq_cons {word rest : List Char} {x y : Char} (hword : Spells word x)
    (heq : word = y :: rest) : y ≠ 'p' ∧ y ≠ 'P' := by
  cases hword with
  | lineFeed | carriageReturn | tab | codePoint =>
    cases heq
    decide
  | punctuation hpunctuation =>
    cases heq
    constructor
    · rintro rfl
      exact absurd hpunctuation (by decide)
    · rintro rfl
      exact absurd hpunctuation (by decide)

theorem Spells.ne_nil {word : List Char} {x : Char} (hword : Spells word x) : word ≠ [] := by
  cases hword with
  | lineFeed | carriageReturn | tab | codePoint | punctuation => exact List.cons_ne_nil _ _

variable {begin : Nat} {enclosure : Enclosure} {c d : Cursor source}

/-- Behind a backslash a reference is read just where a name is spelled. -/
theorem read_eq_read_inl_iff {reference : PropertyReference} :
    read begin enclosure c = .read (.inl reference) d ↔
      ∃ name negated, IsName name ∧ c.ahead = ofName negated name ++ d.ahead ∧
        reference = ⟨String.ofList name, negated, enclosure, ⟨begin, d.offset⟩⟩ := by
  constructor
  · intro hread
    rw [read] at hread
    split at hread
    · next e hletter =>
      obtain ⟨found, hfound, heq⟩ := Reading.map_eq_read_iff.mp hread
      cases heq
      obtain ⟨name, hname, hahead, hreference⟩ := readProperty_eq_read_iff.mp hfound
      refine ⟨name, false, hname, ?_, hreference⟩
      rw [Cursor.next?_eq_some_iff.mp hletter, hahead]
      simp [ofName]
    · next e hletter =>
      obtain ⟨found, hfound, heq⟩ := Reading.map_eq_read_iff.mp hread
      cases heq
      obtain ⟨name, hname, hahead, hreference⟩ := readProperty_eq_read_iff.mp hfound
      refine ⟨name, true, hname, ?_, hreference⟩
      rw [Cursor.next?_eq_some_iff.mp hletter, hahead]
      simp [ofName]
    · obtain ⟨found, -, heq⟩ := Reading.map_eq_read_iff.mp hread
      cases heq
  · intro hspelled
    obtain ⟨name, negated, hname, hahead, hreference⟩ := hspelled
    obtain ⟨e, hletter, he⟩ := Cursor.exists_next?_eq_some hahead
    have hfound : readProperty begin negated enclosure e = .read reference d :=
      readProperty_eq_read_iff.mpr ⟨name, hname, by simpa using he, hreference⟩
    cases negated with
    | false => simp only [read, hletter, Bool.false_eq_true, ↓reduceIte, hfound, Reading.map]
    | true => simp only [read, hletter, ↓reduceIte, hfound, Reading.map]

/-- Behind a backslash a character is read just where one is spelled. -/
theorem read_eq_read_inr_iff {x : Char} :
    read begin enclosure c = .read (.inr x) d ↔
      ∃ word, Spells word x ∧ c.ahead = word ++ d.ahead := by
  rw [← readChar_eq_read_iff]
  constructor
  · intro hread
    rw [read] at hread
    split at hread
    · obtain ⟨found, -, heq⟩ := Reading.map_eq_read_iff.mp hread
      cases heq
    · obtain ⟨found, -, heq⟩ := Reading.map_eq_read_iff.mp hread
      cases heq
    · obtain ⟨found, hfound, heq⟩ := Reading.map_eq_read_iff.mp hread
      cases heq
      exact hfound
  · intro hread
    obtain ⟨word, hword, hahead⟩ := readChar_eq_read_iff.mp hread
    obtain ⟨y, rest, hcons⟩ := List.exists_cons_of_ne_nil hword.ne_nil
    obtain ⟨hsmall, hcapital⟩ := hword.ne_of_eq_cons hcons
    rw [hcons] at hahead
    obtain ⟨e, hnext, -⟩ := Cursor.exists_next?_eq_some hahead
    rw [read, hnext, hread]
    split
    · next heq => exact absurd (by simpa using heq) (fun h : y = 'p' ∧ _ => hsmall h.1)
    · next heq => exact absurd (by simpa using heq) (fun h : y = 'P' ∧ _ => hcapital h.1)
    · rfl

theorem read_of_isName (begin : Nat) (enclosure : Enclosure) {name : List Char} (negated : Bool)
    (hname : IsName name) (hahead : c.ahead = ofName negated name ++ d.ahead) :
    read begin enclosure c =
      .read (.inl ⟨String.ofList name, negated, enclosure, ⟨begin, d.offset⟩⟩) d :=
  read_eq_read_inl_iff.mpr ⟨name, negated, hname, hahead, rfl⟩

theorem read_of_spells (begin : Nat) (enclosure : Enclosure) {word : List Char} {x : Char}
    (hword : Spells word x) (hahead : c.ahead = word ++ d.ahead) :
    read begin enclosure c = .read (.inr x) d :=
  read_eq_read_inr_iff.mpr ⟨word, hword, hahead⟩

end Escape

/-! ### Items of classes -/

/-- A set of characters with further ranges and tests. -/
def CharSet.extend (set : CharSet) (ranges : List CharRange) (tests : List (Char → Bool)) :
    CharSet :=
  ⟨set.negated, ranges.foldl CharClass.insert set.chars, set.properties ++ tests⟩

namespace Draft

/-- Outside of classes a reference stands for the strings or the characters of the property that it
names, if it names one. -/
theorem resolve_eq_ok_iff_names {resolver : Resolver} {reference : PropertyReference}
    {node : Node} :
    resolve resolver reference = .ok node ↔
      (∃ known fragment, resolver.resolve reference = .ok (.strings known fragment) ∧
        node = .strings fragment) ∨
      ∃ known holds, resolver.resolve reference = .ok (.chars known holds) ∧
        node = .set ⟨false, .empty, [fun c => holds c != reference.negated]⟩ := by
  rw [resolve]
  cases resolver.resolve reference with
  | error error => simp
  | ok resolved =>
    cases resolved with
    | strings known fragment => simp [and_assoc, @eq_comm _ node]
    | chars known holds => simp [and_assoc, @eq_comm _ node]
    | unknown known => simp

/-- In a class a reference stands for the characters of the property that it names, if it names
one. -/
theorem resolveInClass_eq_ok_iff {resolver : Resolver} {reference : PropertyReference}
    {test : Char → Bool} :
    resolveInClass resolver reference = .ok test ↔
      ∃ known holds, resolver.resolve reference = .ok (.chars known holds) ∧
        test = fun c => holds c != reference.negated := by
  rw [resolveInClass]
  cases resolver.resolve reference with
  | error error => simp
  | ok resolved =>
    cases resolved with
    | strings known fragment => simp
    | chars known holds => simp [and_assoc, @eq_comm _ test]
    | unknown known => simp

end Draft

namespace ClassItem

theorem SpellsChar.exists_eq_cons {word : List Char} {x : Char} (hword : SpellsChar word x) :
    ∃ y rest, word = y :: rest ∧ y ≠ ']' := by
  cases hword with
  | raw hbracket hbackslash => exact ⟨_, _, rfl, hbracket⟩
  | escaped hword => exact ⟨_, _, rfl, by decide⟩

theorem SpellsChar.ahead_ne {word rest : List Char} {x : Char} {c : Cursor source}
    (hword : SpellsChar word x) (hahead : c.ahead = word ++ rest) (after : List Char) :
    c.ahead ≠ ']' :: after := by
  obtain ⟨y, more, rfl, hne⟩ := hword.exists_eq_cons
  simp [hahead, hne]

/-- Whether the text behind a character does not go on with a range. -/
def EndsRange (ahead : List Char) : Prop :=
  ahead ≠ ['-'] ∧ ∀ x after, ahead = '-' :: x :: after → x = ']'

variable {classBegin begin : Nat} {negated : Bool} {c d : Cursor source}

theorem ofRange_eq_read_iff {lo hi : Char} {item : ClassItem} :
    ofRange begin lo hi c = .read item d ↔ lo ≤ hi ∧ item = .range lo hi ∧ c = d := by
  rw [ofRange]
  split
  · next hle => simp [hle, eq_comm]
  · next hlt => simp [hlt]

/-- What follows a character of a class makes a range just where one is spelled. -/
theorem readUpper_eq_read_iff {lo : Char} {item : ClassItem} :
    readUpper classBegin begin negated lo c = .read item d ↔
      (EndsRange c.ahead ∧ item = .range lo lo ∧ c = d) ∨
        ∃ high hi, SpellsChar high hi ∧ lo ≤ hi ∧ c.ahead = '-' :: (high ++ d.ahead) ∧
          item = .range lo hi := by
  constructor
  · intro hread
    rw [readUpper] at hread
    split at hread
    · next e hhyphen =>
      have hahead := Cursor.next?_eq_some_iff.mp hhyphen
      split at hread
      · next f hbracket =>
        cases hread
        refine .inl ⟨?_, rfl, rfl⟩
        rw [hahead, Cursor.next?_eq_some_iff.mp hbracket]
        refine ⟨by simp, ?_⟩
        intro x after heq
        cases heq
        rfl
      · cases hread
      · next f hbackslash =>
        split at hread
        · next hi g hescape =>
          obtain ⟨hle, hitem, rfl⟩ := ofRange_eq_read_iff.mp hread
          obtain ⟨word, hword, hrest⟩ := Escape.read_eq_read_inr_iff.mp hescape
          refine .inr ⟨_, hi, .escaped hword, hle, ?_, hitem⟩
          rw [hahead, Cursor.next?_eq_some_iff.mp hbackslash, hrest]
          rfl
        · cases hread
        · cases hread
      · next hi f hbracket hbackslash hnext =>
        obtain ⟨hle, hitem, rfl⟩ := ofRange_eq_read_iff.mp hread
        refine .inr ⟨_, hi, .raw hbracket hbackslash, hle, ?_, hitem⟩
        rw [hahead, Cursor.next?_eq_some_iff.mp hnext]
        rfl
    · next hhyphen =>
      cases hread
      refine .inl ⟨⟨?_, ?_⟩, rfl, rfl⟩
      · intro hahead
        obtain ⟨e, hnext, -⟩ := Cursor.exists_next?_eq_some hahead
        exact hhyphen e hnext
      · intro x after hahead
        obtain ⟨e, hnext, -⟩ := Cursor.exists_next?_eq_some hahead
        exact absurd hnext (hhyphen e)
  · rintro (⟨⟨hlone, hends⟩, rfl, rfl⟩ | ⟨high, hi, hhigh, hle, hahead, rfl⟩)
    · rw [readUpper]
      split
      · next e hhyphen =>
        have hahead := Cursor.next?_eq_some_iff.mp hhyphen
        cases hnext : e.next? with
        | none =>
          have hnil : e.ahead = [] := Cursor.next?_eq_none_iff.mp hnext
          exact absurd (by rw [hahead, hnil]) hlone
        | some step =>
          obtain ⟨x, f⟩ := step
          rw [Cursor.next?_eq_some_iff.mp hnext] at hahead
          obtain rfl := hends x _ hahead
          rfl
      · rfl
    · obtain ⟨e, hhyphen, he⟩ := Cursor.exists_next?_eq_some hahead
      rw [readUpper, hhyphen]
      cases hhigh with
      | raw hbracket hbackslash =>
        have hnext := Cursor.next?_eq_some_iff.mpr he
        simp only [hnext]
        exact ofRange_eq_read_iff.mpr ⟨hle, rfl, rfl⟩
      | escaped hword =>
        obtain ⟨f, hbackslash, hf⟩ := Cursor.exists_next?_eq_some he
        simp only [hbackslash, Escape.read_of_spells e.offset (.characterClass negated) hword hf]
        exact ofRange_eq_read_iff.mpr ⟨hle, rfl, rfl⟩

/-- An item is read just where a character, with what follows it, or a name is spelled. -/
theorem read_eq_read_iff {item : ClassItem} (hbracket : ∀ rest, c.ahead ≠ ']' :: rest) :
    read classBegin negated c = .read item d ↔
      (∃ word lo, ∃ e : Cursor source, SpellsChar word lo ∧ c.ahead = word ++ e.ahead ∧
        readUpper classBegin c.offset negated lo e = .read item d) ∨
      ∃ name capital, Escape.IsName name ∧
        c.ahead = '\\' :: (Escape.ofName capital name ++ d.ahead) ∧
        item = .property ⟨String.ofList name, capital, .characterClass negated,
          ⟨c.offset, d.offset⟩⟩ := by
  constructor
  · intro hread
    rw [read] at hread
    split at hread
    · cases hread
    · next e hbackslash =>
      have hahead := Cursor.next?_eq_some_iff.mp hbackslash
      split at hread
      · next reference f hescape =>
        cases hread
        obtain ⟨name, capital, hname, hrest, rfl⟩ := Escape.read_eq_read_inl_iff.mp hescape
        exact .inr ⟨name, capital, hname, by rw [hahead, hrest], rfl⟩
      · next lo f hescape =>
        obtain ⟨word, hword, hrest⟩ := Escape.read_eq_read_inr_iff.mp hescape
        exact .inl ⟨_, lo, f, .escaped hword, by rw [hahead, hrest]; rfl, hread⟩
      · cases hread
    · next lo e hbackslash hnext =>
      have hahead := Cursor.next?_eq_some_iff.mp hnext
      refine .inl ⟨_, lo, e, .raw ?_ hbackslash, hahead, hread⟩
      rintro rfl
      exact hbracket _ hahead
  · rintro (⟨word, lo, e, hword, hahead, hupper⟩ | ⟨name, capital, hname, hahead, rfl⟩)
    · cases hword with
      | raw _ hbackslash =>
        rw [read, Cursor.next?_eq_some_iff.mpr hahead]
        split
        · next heq => simp at heq
        · next heq => simp_all
        · next heq =>
          cases heq
          exact hupper
      | escaped hword =>
        obtain ⟨f, hbackslash, hf⟩ := Cursor.exists_next?_eq_some hahead
        simp only [read, hbackslash,
          Escape.read_of_spells c.offset (.characterClass negated) hword hf]
        exact hupper
    · obtain ⟨f, hbackslash, hf⟩ := Cursor.exists_next?_eq_some hahead
      simp only [read, hbackslash,
        Escape.read_of_isName c.offset (.characterClass negated) capital hname hf]

theorem read_of_char (classBegin : Nat) (negated : Bool) {word : List Char} {x : Char}
    (hchar : SpellsChar word x) (hahead : c.ahead = word ++ d.ahead) (hends : EndsRange d.ahead) :
    read classBegin negated c = .read (.range x x) d :=
  (read_eq_read_iff (hchar.ahead_ne hahead)).mpr (.inl ⟨word, x, d, hchar, hahead,
    readUpper_eq_read_iff.mpr (.inl ⟨hends, rfl, rfl⟩)⟩)

theorem read_of_range (classBegin : Nat) (negated : Bool) {low high : List Char} {lo hi : Char}
    {e : Cursor source} (hlo : SpellsChar low lo) (hhi : SpellsChar high hi) (hle : lo ≤ hi)
    (hahead : c.ahead = low ++ e.ahead) (hupper : e.ahead = '-' :: (high ++ d.ahead)) :
    read classBegin negated c = .read (.range lo hi) d :=
  (read_eq_read_iff (hlo.ahead_ne hahead)).mpr (.inl ⟨low, lo, e, hlo, hahead,
    readUpper_eq_read_iff.mpr (.inr ⟨high, hi, hhi, hle, hupper, rfl⟩)⟩)

theorem read_of_isName (classBegin : Nat) (negated : Bool) {name : List Char} {capital : Bool}
    (hname : Escape.IsName name)
    (hahead : c.ahead = '\\' :: (Escape.ofName capital name ++ d.ahead)) :
    read classBegin negated c = .read (.property ⟨String.ofList name, capital,
      .characterClass negated, ⟨c.offset, d.offset⟩⟩) d :=
  (read_eq_read_iff (by simp [hahead])).mpr (.inr ⟨name, capital, hname, hahead, rfl⟩)

/-! ### Whole classes -/

theorem readAll_of_bracket (hbracket : c.ahead = ']' :: d.ahead) :
    readAll classBegin negated c = ([], .ok d) := by
  rw [readAll, Cursor.next?_eq_some_iff.mpr hbracket]
  rfl

theorem readAll_of_read {item : ClassItem} (hbracket : ∀ rest, c.ahead ≠ ']' :: rest)
    (hread : read classBegin negated c = .read item d) :
    readAll classBegin negated c =
      (item :: (readAll classBegin negated d).1, (readAll classBegin negated d).2) := by
  rw [readAll]
  split
  · next e hnext => exact absurd (Cursor.next?_eq_some_iff.mp hnext) (hbracket _)
  · split
    · next hbroken => simp [hread] at hbroken
    · next hsame =>
      rw [hread] at hsame
      cases hsame
      rfl

variable {resolver : Resolver}

/-- A class ends with the bracket that closes it. -/
theorem SpellsAll.exists_eq_append {items : List Char} {ranges : List CharRange}
    {tests : List (Char → Bool)} (hitems : SpellsAll resolver negated items ranges tests) :
    ∃ front, items = front ++ [']'] := by
  induction hitems with
  | close => exact ⟨[], rfl⟩
  | @char word rest x ranges tests hchar hhyphen hrest ih =>
    obtain ⟨front, rfl⟩ := ih
    exact ⟨word ++ front, (List.append_assoc _ _ _).symm⟩
  | @range low high rest lo hi ranges tests hlo hhi hle hrest ih =>
    obtain ⟨front, rfl⟩ := ih
    exact ⟨low ++ '-' :: (high ++ front), by simp⟩
  | @property name rest capital known holds ranges tests hname hknown hrest ih =>
    obtain ⟨front, rfl⟩ := ih
    exact ⟨'\\' :: (Escape.ofName capital name ++ front), by simp⟩

/-- What stands behind the class does not change what a hyphen in it means. -/
theorem SpellsAll.endsRange {rest : List Char} {ranges : List CharRange}
    {tests : List (Char → Bool)} (hrest : SpellsAll resolver negated rest ranges tests)
    (hhyphen : ∀ x after, rest = '-' :: x :: after → x = ']') (behind : List Char) :
    EndsRange (rest ++ behind) := by
  obtain ⟨front, rfl⟩ := hrest.exists_eq_append
  match front with
  | [] => exact ⟨by simp, by simp⟩
  | [x] => exact ⟨by simp, by simp⟩
  | x :: y :: front =>
    refine ⟨by simp, ?_⟩
    intro z after heq
    obtain ⟨rfl, rfl, -⟩ : x = '-' ∧ y = z ∧ _ := by simpa using heq
    exact hhyphen y _ rfl

/-- A class that is spelled is read up to its bracket, and its items name what they should. -/
theorem exists_readAll_eq {items : List Char} {ranges : List CharRange}
    {tests : List (Char → Bool)} (hitems : SpellsAll resolver negated items ranges tests)
    (classBegin : Nat) (hahead : c.ahead = items ++ d.ahead) :
    ∃ read, readAll classBegin negated c = (read, .ok d) ∧
      ∀ set, Draft.addItems resolver set read = .ok (set.extend ranges tests) := by
  induction hitems generalizing c with
  | close =>
    refine ⟨[], readAll_of_bracket hahead, ?_⟩
    intro set
    simp [Draft.addItems, CharSet.extend]
  | @char word rest x ranges tests hchar hhyphen hrest ih =>
    rw [List.append_assoc] at hahead
    obtain ⟨e, he⟩ := Cursor.exists_ahead_eq hahead
    obtain ⟨read, hread, hadd⟩ := ih he
    rw [← he] at hahead
    have hends : EndsRange e.ahead := by
      rw [he]
      exact hrest.endsRange hhyphen d.ahead
    have hitem := readAll_of_read (hchar.ahead_ne hahead)
      (read_of_char classBegin negated hchar hahead hends)
    refine ⟨_, by rw [hitem, hread], ?_⟩
    intro set
    rw [Draft.addItems, hadd]
    rfl
  | @range low high rest lo hi ranges tests hlo hhi hle hrest ih =>
    rw [List.append_assoc, List.cons_append, List.append_assoc] at hahead
    obtain ⟨b, hb⟩ := Cursor.exists_ahead_eq hahead
    obtain ⟨e, he⟩ := Cursor.exists_ahead_eq
      (show b.ahead = ('-' :: high) ++ (rest ++ d.ahead) from hb)
    obtain ⟨read, hread, hadd⟩ := ih he
    rw [← he] at hb
    rw [← he, ← hb] at hahead
    have hitem := readAll_of_read (hlo.ahead_ne hahead)
      (read_of_range classBegin negated hlo hhi hle hahead hb)
    refine ⟨_, by rw [hitem, hread], ?_⟩
    intro set
    rw [Draft.addItems, hadd]
    rfl
  | @property name rest capital known holds ranges tests hname hknown hrest ih =>
    rw [List.cons_append, List.append_assoc] at hahead
    obtain ⟨e, he⟩ := Cursor.exists_ahead_eq
      (show c.ahead = ('\\' :: Escape.ofName capital name) ++ (rest ++ d.ahead) from hahead)
    obtain ⟨read, hread, hadd⟩ := ih he
    rw [← he] at hahead
    have hitem := readAll_of_read (by simp [hahead])
      (read_of_isName classBegin negated hname hahead)
    refine ⟨_, by rw [hitem, hread], ?_⟩
    intro set
    have htest := Draft.resolveInClass_eq_ok_iff.mpr
      ⟨known, holds, (Resolver.knows_iff ⟨c.offset, e.offset⟩).mp hknown, rfl⟩
    simp only [Draft.addItems, htest, hadd]
    simp [CharSet.extend]

/-- What is read of a class up to its bracket is spelled there, and its items name what it says. -/
theorem spellsAll_of_readAll {classBegin : Nat} {items : List ClassItem} {set out : CharSet}
    (hread : readAll classBegin negated c = (items, .ok d))
    (hadd : Draft.addItems resolver set items = .ok out) :
    ∃ word ranges tests, SpellsAll resolver negated word ranges tests ∧
      c.ahead = word ++ d.ahead ∧ out = set.extend ranges tests := by
  fun_induction readAll classBegin negated c generalizing items set with
  | case1 c e hnext =>
    cases hread
    cases hadd
    exact ⟨_, _, _, .close, Cursor.next?_eq_some_iff.mp hnext, by simp [CharSet.extend]⟩
  | case2 => simp at hread
  | case3 c item e hitem rest result hrest hbracket ih =>
    simp only [Prod.mk.injEq] at hread
    obtain ⟨rfl, rfl⟩ := hread
    have hahead : ∀ rest, c.ahead ≠ ']' :: rest := by
      intro rest hahead
      obtain ⟨b, hnext, -⟩ := Cursor.exists_next?_eq_some hahead
      exact hbracket b hnext
    rcases (read_eq_read_iff hahead).mp hitem with
      ⟨word, lo, b, hword, hbehind, hupper⟩ | ⟨name, capital, hname, hbehind, rfl⟩
    · rcases readUpper_eq_read_iff.mp hupper with
        ⟨hends, rfl, rfl⟩ | ⟨high, hi, hhigh, hle, hrange, rfl⟩
      · obtain ⟨after, ranges, tests, hafter, hsplit, rfl⟩ := ih hrest hadd
        refine ⟨word ++ after, _, tests, .char hword ?_ hafter, ?_, rfl⟩
        · intro x more heq
          exact hends.2 x (more ++ d.ahead) (by rw [hsplit, heq]; rfl)
        · rw [hbehind, hsplit, List.append_assoc]
      · obtain ⟨after, ranges, tests, hafter, hsplit, rfl⟩ := ih hrest hadd
        refine ⟨word ++ '-' :: (high ++ after), _, tests, .range hword hhigh hle hafter, ?_, rfl⟩
        rw [hbehind, hrange, hsplit]
        simp
    · rw [Draft.addItems] at hadd
      split at hadd
      · cases hadd
      · next test htest =>
        obtain ⟨known, holds, hresolve, rfl⟩ := Draft.resolveInClass_eq_ok_iff.mp htest
        obtain ⟨after, ranges, tests, hafter, hsplit, rfl⟩ := ih hrest hadd
        refine ⟨_, ranges, _, .property hname ⟨_, hresolve⟩ hafter, ?_, ?_⟩
        · rw [hbehind, hsplit]
          simp
        · simp [CharSet.extend]

end ClassItem

end EmojiPatterns
