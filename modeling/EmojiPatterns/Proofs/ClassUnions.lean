import EmojiPatterns.Proofs.Boundaries
import EmojiPatterns.Proofs.ClassHistories
import EmojiPatterns.Proofs.Composition
import EmojiPatterns.Proofs.MemberSearch
import EmojiPatterns.Proofs.QuotedCharacters

/-!
# Classes are unions

The items of a class are characters, ranges of characters and properties of characters or their
complements.  While a class is read, its characters go into one set of ranges and its properties
into a list of tests, and each property has a negation of its own besides that of the class.  All
the same a class matches the characters of any of its items, and a caret makes it match all others.
Main statement: `Pattern.classes_are_unions`.
-/

namespace EmojiPatterns

variable {resolver : Resolver}

/-! ### Items -/

/-- An item of a class. -/
inductive ClassPart where
  | char (c : Char)
  | range (lo hi : Char)
  /-- The characters with a property, or all without it. -/
  | property (name : List Char) (negated : Bool)

namespace ClassPart

/-- How an item is written. -/
def text : ClassPart → List Char
  | char c => Escape.quote c
  | range lo hi => Escape.quote lo ++ '-' :: Escape.quote hi
  | property name negated => '\\' :: Escape.ofName negated name

/-- The item may stand in a class: a range is in order, and a name is a property of characters and
not of strings. -/
def Fits (resolver : Resolver) : ClassPart → Prop
  | char _ => True
  | range lo hi => lo ≤ hi
  | property name _ => Escape.IsName name ∧ resolver.table.lookup? (String.ofList name) = none ∧
      (resolver.charProperty? (String.ofList name)).isSome = true

/-- The characters of an item. -/
def Holds (resolver : Resolver) (c : Char) : ClassPart → Prop
  | char x => c = x
  | range lo hi => lo ≤ c ∧ c ≤ hi
  | property name negated => ∃ holds, resolver.charProperty? (String.ofList name) = some holds ∧
      holds c = !negated

theorem holds_property_iff {name : List Char} {negated : Bool} {holds : Char → Bool} {c : Char}
    (hholds : resolver.charProperty? (String.ofList name) = some holds) :
    (property name negated).Holds resolver c ↔ (holds c != negated) = true := by
  rw [Holds, hholds, bne_iff_ne, ← Bool.eq_not]
  simp only [Option.some.injEq, exists_eq_left']

/-- Every character has a known property or is without it. -/
theorem holds_property_not_iff {name : List Char} {negated : Bool} {c : Char}
    (hfits : (property name negated).Fits resolver) :
    (property name !negated).Holds resolver c ↔ ¬ (property name negated).Holds resolver c := by
  obtain ⟨holds, hholds⟩ := Option.isSome_iff_exists.mp hfits.2.2
  rw [holds_property_iff hholds, holds_property_iff hholds]
  cases holds c <;> cases negated <;> decide

theorem head?_text_append_ne {sign : Char} (hsign : Unicode.isAsciiPunctuation sign = true)
    (hbackslash : sign ≠ '\\') (part : ClassPart) (rest : List Char) :
    (part.text ++ rest).head? ≠ some sign := by
  cases part with
  | char c => exact Escape.head?_quote_append_ne hsign hbackslash c rest
  | range lo hi =>
    rw [text, List.append_assoc]
    exact Escape.head?_quote_append_ne hsign hbackslash lo _
  | property name negated => simpa [text] using hbackslash.symm

end ClassPart

/-- The items of a class and the bracket behind them. -/
def itemsText (parts : List ClassPart) : List Char :=
  parts.flatMap ClassPart.text ++ [']']

/-- The class of some items, or of all characters of none of them. -/
def classText (negated : Bool) (parts : List ClassPart) : List Char :=
  '[' :: ((if negated then ['^'] else []) ++ itemsText parts)

/-- No item starts with a hyphen or a caret. -/
theorem head?_itemsText_ne {sign : Char} (hsign : Unicode.isAsciiPunctuation sign = true)
    (hbackslash : sign ≠ '\\') (hbracket : sign ≠ ']') (parts : List ClassPart) :
    (itemsText parts).head? ≠ some sign := by
  cases parts with
  | nil => simpa [itemsText] using hbracket.symm
  | cons part rest =>
    rw [itemsText, List.flatMap_cons, List.append_assoc]
    exact part.head?_text_append_ne hsign hbackslash _

/-- A name that the table lacks is looked up among the properties of characters. -/
theorem Resolver.knows_chars {name : List Char} {negated : Bool} {enclosure : Enclosure}
    {holds : Char → Bool} (hlookup : resolver.table.lookup? (String.ofList name) = none)
    (hholds : resolver.charProperty? (String.ofList name) = some holds) :
    resolver.Knows name negated enclosure (.chars (String.ofList name) holds) :=
  (Resolver.knows_iff ⟨0, 0⟩).mpr (by simp [resolve, hlookup, hholds])

/-- Items that fit are read as ranges and tests, which let in just the characters of any item. -/
theorem exists_spellsAll (negated : Bool) {parts : List ClassPart}
    (hparts : ∀ part ∈ parts, part.Fits resolver) :
    ∃ ranges tests, ClassItem.SpellsAll resolver negated (itemsText parts) ranges tests ∧
      ∀ c, ((∃ range ∈ ranges, range.lo ≤ c ∧ c ≤ range.hi) ∨ ∃ test ∈ tests, test c = true) ↔
        ∃ part ∈ parts, part.Holds resolver c := by
  induction parts with
  | nil => exact ⟨[], [], .close, by simp⟩
  | cons part rest ih =>
    obtain ⟨hpart, hrest⟩ := List.forall_mem_cons.mp hparts
    obtain ⟨ranges, tests, hspells, hmembers⟩ := ih hrest
    have hitems : itemsText (part :: rest) = part.text ++ itemsText rest := by
      rw [itemsText, List.flatMap_cons, List.append_assoc]
      rfl
    cases part with
    | char x =>
      have hhyphen : ∀ y after, itemsText rest = '-' :: y :: after → y = ']' := by
        intro y after hrest
        have hhead : (itemsText rest).head? ≠ some '-' :=
          head?_itemsText_ne rfl (by decide) (by decide) rest
        simp [hrest] at hhead
      refine ⟨⟨x, x⟩ :: ranges, tests, ?_, ?_⟩
      · rw [hitems]
        exact .char (Escape.spellsChar_quote x) hhyphen hspells
      · intro c
        have hself : x ≤ c ∧ c ≤ x ↔ c = x := by
          rw [le_iff_rank_le, le_iff_rank_le, ← rank_inj]
          omega
        simp only [List.mem_cons, exists_eq_or_imp]
        rw [← hmembers, ClassPart.Holds, hself, or_assoc]
    | range lo hi =>
      refine ⟨⟨lo, hi⟩ :: ranges, tests, ?_, ?_⟩
      · have hrange := ClassItem.SpellsAll.range (Escape.spellsChar_quote lo)
          (Escape.spellsChar_quote hi) hpart hspells
        simpa [hitems, ClassPart.text] using hrange
      · intro c
        simp only [List.mem_cons, exists_eq_or_imp]
        rw [← hmembers, ClassPart.Holds, or_assoc]
    | property name capital =>
      obtain ⟨hname, hlookup, hknown⟩ := hpart
      obtain ⟨holds, hholds⟩ := Option.isSome_iff_exists.mp hknown
      refine ⟨ranges, (fun c => holds c != capital) :: tests, ?_, ?_⟩
      · rw [hitems]
        exact .property hname (Resolver.knows_chars hlookup hholds) hspells
      · intro c
        simp only [List.mem_cons, exists_eq_or_imp]
        rw [← hmembers, ClassPart.holds_property_iff hholds]
        exact or_left_comm

/-! ### Matching a set of characters -/

theorem CharSet.contains_eq_true_iff {set : CharSet} {c : Char} :
    set.contains c = true ↔
      ((set.chars.contains c = true ∨ ∃ holds ∈ set.properties, holds c = true) ↔
        set.negated = false) := by
  rw [contains, ← List.any_eq_true, ← Bool.or_eq_true, bne_iff_ne]
  cases set.chars.contains c || set.properties.any fun holds => holds c <;>
    cases set.negated <;> decide

/-- A step that takes a character goes behind the next one, if that passes the test. -/
theorem Steps.head?_ends_next {test : Char → Bool} {text : List Char} {c d : Cursor text} :
    ((Steps.next test).ends c).head? = some d ↔ ∃ x, c.ahead = x :: d.ahead ∧ test x = true := by
  rw [next]
  cases hnext : c.next? with
  | none =>
    have hend : c.ahead = [] := Cursor.next?_eq_none_iff.mp hnext
    simp [hend, hnext]
  | some step =>
    obtain ⟨y, e⟩ := step
    have hahead := Cursor.next?_eq_some_iff.mp hnext
    simp only [hnext, hahead, List.cons.injEq]
    constructor
    · intro hhead
      split at hhead
      · next htest =>
        obtain rfl := Option.some.inj hhead
        exact ⟨y, ⟨rfl, rfl⟩, htest⟩
      · cases hhead
    · rintro ⟨x, ⟨rfl, hrest⟩, htest⟩
      rw [if_pos htest, List.head?_cons, Cursor.ext_ahead hrest]

/-- A set of characters matches one character that it contains. -/
theorem Pattern.matchAt_set_iff {source : List Char} {set : CharSet} {text : List Char}
    {offset stop : Nat} :
    matchAt ⟨source, .set set⟩ text offset = some stop ↔
      ∃ c, StandsAt [c] text offset ∧ stop = offset + c.utf8Size ∧ set.contains c = true := by
  rw [matchAt_eq_some_iff]
  constructor
  · rintro ⟨d, e, rfl, rfl, hhead⟩
    obtain ⟨c, hahead, hcontains⟩ := Steps.head?_ends_next.mp hhead
    have hword : d.ahead = [c] ++ e.ahead := hahead
    exact ⟨c, standsAt_offset_iff.mpr ⟨e, hword⟩, Cursor.offset_eq_of_ahead_eq hword, hcontains⟩
  · rintro ⟨c, hstands, rfl, hcontains⟩
    obtain ⟨d, e, rfl, hahead⟩ := standsAt_iff.mp hstands
    have hoffset := Cursor.offset_eq_of_ahead_eq hahead
    exact ⟨d, e, rfl, hoffset, Steps.head?_ends_next.mpr ⟨c, hahead, hcontains⟩⟩

theorem StandsAt.char_unique {c d : Char} {text : List Char} {offset : Nat}
    (hc : StandsAt [c] text offset) (hd : StandsAt [d] text offset) : c = d := by
  obtain ⟨place, e, rfl, hahead⟩ := standsAt_iff.mp hc
  obtain ⟨f, hother⟩ := standsAt_offset_iff.mp hd
  exact (List.cons.inj (hahead.symm.trans hother)).1

theorem Pattern.matchAt_set_eq_none_iff {source : List Char} {set : CharSet} {text : List Char}
    {offset : Nat} {c : Char} (hstands : StandsAt [c] text offset) :
    matchAt ⟨source, .set set⟩ text offset = none ↔ ¬ set.contains c = true := by
  rw [Option.eq_none_iff_forall_ne_some]
  simp only [ne_eq, matchAt_set_iff]
  constructor
  · intro hnone hcontains
    exact hnone _ ⟨c, hstands, rfl, hcontains⟩
  · rintro hout stop ⟨d, hother, -, hcontains⟩
    exact hout (hstands.char_unique hother ▸ hcontains)

/-- Sets of the same characters cannot be told apart. -/
theorem Pattern.alike_of_contains_iff {source other : List Char} {left right : CharSet}
    (hsame : ∀ c, left.contains c = true ↔ right.contains c = true) :
    Alike ⟨source, .set left⟩ ⟨other, .set right⟩ := by
  have hcontains : left.contains = right.contains := funext fun c => Bool.eq_iff_iff.mpr (hsame c)
  apply alike_of_ends
  intro text c
  simp only [Node.ends, Node.steps, hcontains]

/-! ### Classes -/

namespace Pattern

/-- A class of items that fit compiles to a set of the characters of its items or of all others. -/
theorem exists_compile_class (negated : Bool) {parts : List ClassPart}
    (hparts : ∀ part ∈ parts, part.Fits resolver) :
    ∃ set, compile resolver (classText negated parts) =
        .ok ⟨classText negated parts, .set set⟩ ∧
      ∀ c, set.contains c = true ↔
        ((∃ part ∈ parts, part.Holds resolver c) ↔ negated = false) := by
  obtain ⟨ranges, tests, hspells, hmembers⟩ := exists_spellsAll negated hparts
  let set : CharSet := ⟨negated, ranges.foldl CharClass.insert .empty, tests⟩
  have hbuilt : CharClass.Built set.chars ranges := CharClass.Built.empty.foldl_insert ranges
  have hclass : Derives resolver .atom ⟨classText negated parts, false, .set set⟩ := by
    cases negated with
    | true => exact .setNot hspells
    | false =>
      have hcaret : (itemsText parts).head? ≠ some '^' :=
        head?_itemsText_ne rfl (by decide) (by decide) parts
      exact .set hspells hcaret
  refine ⟨set, compile_of_derives hclass.alternation_of_atom rfl, ?_⟩
  intro c
  rw [CharSet.contains_eq_true_iff, hbuilt.contains_iff, hmembers]

/-- A property of characters outside of classes has the same characters as the item. -/
theorem exists_compile_property {name : List Char} {negated : Bool}
    (hfits : (ClassPart.property name negated).Fits resolver) :
    ∃ set, compile resolver (ClassPart.property name negated).text =
        .ok ⟨(ClassPart.property name negated).text, .set set⟩ ∧
      ∀ c, set.contains c = true ↔ (ClassPart.property name negated).Holds resolver c := by
  obtain ⟨hname, hlookup, hknown⟩ := hfits
  obtain ⟨holds, hholds⟩ := Option.isSome_iff_exists.mp hknown
  have hatom : Derives resolver .atom ⟨(ClassPart.property name negated).text, false,
      .set ⟨false, .empty, [fun c => holds c != negated]⟩⟩ :=
    .chars hname (Resolver.knows_chars hlookup hholds)
  refine ⟨_, compile_of_derives hatom.alternation_of_atom rfl, ?_⟩
  intro c
  rw [ClassPart.holds_property_iff hholds, CharSet.contains_eq_true_iff]
  simp [CharClass.contains, CharClass.empty]

/-- A class matches a character exactly if that is one of an item's, and a negated class exactly if
there is a character that the class does not match.  A property of characters means the same
outside of classes, as the only item of a class, and as the complement of the only item of a
negated class. -/
theorem classes_are_unions (resolver : Resolver) :
    (∀ parts : List ClassPart, (∀ part ∈ parts, part.Fits resolver) →
      ∃ union complement, compile resolver (classText false parts) = .ok union ∧
        compile resolver (classText true parts) = .ok complement ∧
        ∀ (text : List Char) (offset stop : Nat),
          (union.matchAt text offset = some stop ↔
            ∃ c, StandsAt [c] text offset ∧ stop = offset + c.utf8Size ∧
              ∃ part ∈ parts, part.Holds resolver c) ∧
          (complement.matchAt text offset = some stop ↔
            ∃ c, StandsAt [c] text offset ∧ stop = offset + c.utf8Size ∧
              union.matchAt text offset = none)) ∧
    ∀ (name : List Char) (negated : Bool), (ClassPart.property name negated).Fits resolver →
      ∃ bare item complement,
        compile resolver (ClassPart.property name negated).text = .ok bare ∧
          compile resolver (classText false [.property name negated]) = .ok item ∧
          compile resolver (classText true [.property name (!negated)]) = .ok complement ∧
          bare.Alike item ∧ bare.Alike complement := by
  constructor
  · intro parts hparts
    obtain ⟨union, hunion, hmember⟩ := exists_compile_class false hparts
    obtain ⟨complement, hcomplement, hother⟩ := exists_compile_class true hparts
    refine ⟨_, _, hunion, hcomplement, ?_⟩
    intro text offset stop
    simp only [matchAt_set_iff, hmember, hother, iff_true, reduceCtorEq, iff_false, true_and]
    apply exists_congr
    intro c
    apply and_congr_right
    intro hstands
    rw [matchAt_set_eq_none_iff hstands, hmember, iff_true_right rfl]
  · intro name negated hfits
    have hone : ∀ part ∈ [ClassPart.property name negated], part.Fits resolver :=
      List.forall_mem_singleton.mpr hfits
    have hopposite : ∀ part ∈ [ClassPart.property name !negated], part.Fits resolver :=
      List.forall_mem_singleton.mpr hfits
    obtain ⟨bare, hbare, hholds⟩ := exists_compile_property hfits
    obtain ⟨item, hitem, hmember⟩ := exists_compile_class false hone
    obtain ⟨complement, hcomplement, hother⟩ := exists_compile_class true hopposite
    refine ⟨_, _, _, hbare, hitem, hcomplement, alike_of_contains_iff ?_, alike_of_contains_iff ?_⟩
    · intro c
      rw [hholds, hmember]
      simp
    · intro c
      rw [hholds, hother]
      simp [ClassPart.holds_property_not_iff hfits]

theorem classes_are_unions_ascii :
    ∃ union complement,
      compile ⟨.empty .pinned, Unicode.binaryProperty?, true⟩ "[\\-a-f\\P\x7bASCII\x7d]".toList =
          .ok union ∧
        compile ⟨.empty .pinned, Unicode.binaryProperty?, true⟩
          "[^\\-a-f\\P\x7bASCII\x7d]".toList = .ok complement ∧
        union.matchAt ['é'] 0 = some 2 ∧ complement.matchAt ['é'] 0 = none := by
  let resolver : Resolver := ⟨.empty .pinned, Unicode.binaryProperty?, true⟩
  let parts : List ClassPart := [.char '-', .range 'a' 'f', .property "ASCII".toList true]
  have hparts : ∀ part ∈ parts, part.Fits resolver := by
    simp only [parts, List.forall_mem_cons, ClassPart.Fits, Escape.IsName]
    exact ⟨trivial, by decide, ⟨⟨by decide, by decide⟩, rfl, rfl⟩, nofun⟩
  obtain ⟨union, complement, hunion, hcomplement, hmatch⟩ :=
    (classes_are_unions resolver).1 parts hparts
  have htaken : union.matchAt ['é'] 0 = some 2 :=
    (hmatch ['é'] 0 2).1.mpr ⟨'é', ⟨[], [], rfl, rfl⟩, rfl, .property "ASCII".toList true,
      by simp [parts], _, rfl, rfl⟩
  refine ⟨union, complement, hunion, hcomplement, htaken, ?_⟩
  rw [Option.eq_none_iff_forall_ne_some]
  intro stop hstop
  obtain ⟨-, -, -, hnone⟩ := (hmatch ['é'] 0 stop).2.mp hstop
  simp [htaken] at hnone

end Pattern

end EmojiPatterns
