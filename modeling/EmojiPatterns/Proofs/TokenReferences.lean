import EmojiPatterns.Proofs.EscapeScan
import EmojiPatterns.Proofs.Faults

/-!
# The references in tokens

The readers of tokens note every reference to a property that they come upon, also the one in which
a broken range would end.  Main statements: the references in the tokens of a source are those that
are met on the way through it (`Tokens.scans_readAll`), and each knows whether it stands in a class
(`Tokens.enclosed_of_mem_readAll`).
-/

namespace EmojiPatterns

variable {source : List Char}

def ClassItem.references : ClassItem → List PropertyReference
  | range _ _ => []
  | property reference => [reference]

/-- The references in a token, in the order in which they are written. -/
def Token.references : Token → List PropertyReference
  | property reference => [reference]
  | set _ items => items.flatMap ClassItem.references
  | _ => []

def Tokens.references (tokens : Tokens) : List PropertyReference :=
  tokens.tokens.flatMap fun placed => placed.token.references

namespace Reading

variable {α : Type} {references : α → List PropertyReference} {stand next : Stand source}
  {enclosure : Enclosure}

/-- What was read, as far as the reading came, is met on the way from a place on. -/
def Meets (references : α → List PropertyReference) (stand : Stand source)
    (enclosure : Enclosure) : Reading α source → Prop
  | read value d => stand.Scans (references value) ⟨d, enclosure⟩
  | broken kept _ => ∃ last, stand.Scans (kept.toList.flatMap references) last

theorem meets_broken_none (error : SyntaxError) :
    (broken none error).Meets references stand enclosure :=
  ⟨stand, .refl⟩

theorem Meets.of_passes {reading : Reading α source} (hpasses : Stand.Passes stand [] next)
    (hmeets : reading.Meets references next enclosure) :
    reading.Meets references stand enclosure := by
  cases reading with
  | read value d => exact .head hpasses hmeets
  | broken kept error =>
    obtain ⟨last, hscans⟩ := hmeets
    exact ⟨last, .head hpasses hscans⟩

end Reading

namespace Escape

variable {c d e : Cursor source} {enclosure : Enclosure}

theorem passes_of_read_eq_inl {reference : PropertyReference}
    (hbackslash : c.ahead = '\\' :: d.ahead)
    (hread : read c.offset enclosure d = .read (.inl reference) e) :
    Stand.Passes ⟨c, enclosure⟩ [reference] ⟨e, enclosure⟩ := by
  obtain ⟨name, negated, hname, hahead, rfl⟩ := read_eq_read_inl_iff.mp hread
  exact .property (by rw [hbackslash, hahead]) hname

theorem passes_of_read_eq_inr {begin : Nat} {x : Char} (hbackslash : c.ahead = '\\' :: d.ahead)
    (hread : read begin enclosure d = .read (.inr x) e) :
    Stand.Passes ⟨c, enclosure⟩ [] ⟨e, enclosure⟩ := by
  obtain ⟨word, hword, hahead⟩ := read_eq_read_inr_iff.mp hread
  exact .char (by rw [hbackslash, hahead]) hword

end Escape

namespace ClassItem

variable {c d : Cursor source} {negated : Bool}

theorem SpellsChar.passes {word : List Char} {x : Char} (hword : SpellsChar word x)
    (hahead : c.ahead = word ++ d.ahead) :
    Stand.Passes ⟨c, .characterClass negated⟩ [] ⟨d, .characterClass negated⟩ := by
  cases hword with
  | raw hbracket hbackslash => exact .sign hahead hbackslash hbracket
  | escaped hword => exact .char hahead hword

/-- All that is kept of a broken range is the property in which it would end. -/
theorem exists_of_readUpper_eq_broken {classBegin begin : Nat} {lo : Char} {item : ClassItem}
    {error : SyntaxError}
    (hread : readUpper classBegin begin negated lo c = .broken (some item) error) :
    ∃ (d e f : Cursor source) (reference : PropertyReference),
      c.next? = some ('-', d) ∧ d.next? = some ('\\', e) ∧
      Escape.read d.offset (.characterClass negated) e = .read (.inl reference) f ∧
      item = .property reference := by
  have hrange (hi : Char) (d : Cursor source) :
      ofRange begin lo hi d ≠ .broken (some item) error := by
    rw [ofRange]
    split <;> simp
  rw [readUpper] at hread
  split at hread
  · next d hhyphen =>
    split at hread
    · cases hread
    · cases hread
    · next e hbackslash =>
      split at hread
      · exact absurd hread (hrange _ _)
      · next reference f hescape =>
        cases hread
        exact ⟨d, e, f, reference, hhyphen, hbackslash, hescape, rfl⟩
      · cases hread
    · exact absurd hread (hrange _ _)
  · cases hread

/-- A hyphen in a class is a sign like others. -/
theorem passes_hyphen (hhyphen : c.next? = some ('-', d)) :
    Stand.Passes ⟨c, .characterClass negated⟩ [] ⟨d, .characterClass negated⟩ :=
  .sign (Cursor.next?_eq_some_iff.mp hhyphen) (by decide) (by simp [Enclosure.bracket])

theorem readUpper_meets (classBegin begin : Nat) (negated : Bool) (lo : Char)
    (c : Cursor source) :
    (readUpper classBegin begin negated lo c).Meets references ⟨c, .characterClass negated⟩
      (.characterClass negated) := by
  cases hread : readUpper classBegin begin negated lo c with
  | read item d =>
    rcases readUpper_eq_read_iff.mp hread with
      ⟨-, rfl, rfl⟩ | ⟨high, hi, hhigh, -, hahead, rfl⟩
    · exact .refl
    · obtain ⟨e, hhyphen, he⟩ := Cursor.exists_next?_eq_some hahead
      exact .head (passes_hyphen hhyphen) (.single (hhigh.passes he))
  | broken kept error =>
    cases kept with
    | none => exact Reading.meets_broken_none error
    | some item =>
      obtain ⟨d, e, f, reference, hhyphen, hbackslash, hescape, rfl⟩ :=
        exists_of_readUpper_eq_broken hread
      have hahead := Cursor.next?_eq_some_iff.mp hbackslash
      have hproperty := Escape.passes_of_read_eq_inl hahead hescape
      exact ⟨_, (Stand.Scans.single (passes_hyphen hhyphen)).trans (.single hproperty)⟩

theorem read_meets (classBegin : Nat) (negated : Bool) {c : Cursor source}
    (hbracket : ∀ d, c.next? ≠ some (']', d)) :
    (read classBegin negated c).Meets references ⟨c, .characterClass negated⟩
      (.characterClass negated) := by
  rw [read]
  split
  · exact Reading.meets_broken_none _
  · next d hnext =>
    have hbackslash := Cursor.next?_eq_some_iff.mp hnext
    split
    · next reference e hescape => exact .single (Escape.passes_of_read_eq_inl hbackslash hescape)
    · next lo e hescape =>
      exact (readUpper_meets _ _ negated lo e).of_passes
        (Escape.passes_of_read_eq_inr hbackslash hescape)
    · exact Reading.meets_broken_none _
  · next lo d hplain hnext =>
    refine (readUpper_meets _ _ negated lo d).of_passes
      (.sign (Cursor.next?_eq_some_iff.mp hnext) hplain ?_)
    rintro rfl
    exact hbracket d hnext

/-- The references in the items of a class are met between its start and the bracket behind it. -/
theorem scans_readAll (classBegin : Nat) (negated : Bool) (c : Cursor source) :
    ∃ last, Stand.Scans ⟨c, .characterClass negated⟩
        ((readAll classBegin negated c).1.flatMap references) last ∧
      ∀ d, (readAll classBegin negated c).2 = .ok d → last = ⟨d, .topLevel⟩ := by
  fun_induction readAll classBegin negated c with
  | case1 c d hnext =>
    refine ⟨⟨d, .topLevel⟩, .single (.closeClass (Cursor.next?_eq_some_iff.mp hnext)), ?_⟩
    intro e heq
    cases heq
    rfl
  | case2 c kept error hbroken hbracket =>
    have hmeets := read_meets classBegin negated hbracket
    rw [hbroken] at hmeets
    obtain ⟨last, hscans⟩ := hmeets
    refine ⟨last, hscans, ?_⟩
    intro d heq
    cases heq
  | case3 c item d hitem rest result hrest hbracket ih =>
    have hmeets := read_meets classBegin negated hbracket
    rw [hitem] at hmeets
    rw [hrest] at ih
    obtain ⟨last, hscans, hlast⟩ := ih
    exact ⟨last, hmeets.trans hscans, hlast⟩

end ClassItem

namespace Token

theorem readItems_meets (begin : Nat) (negated : Bool) (c : Cursor source) :
    (readItems begin negated c).Meets references ⟨c, .characterClass negated⟩ .topLevel := by
  obtain ⟨last, hscans, hlast⟩ := ClassItem.scans_readAll begin negated c
  rw [readItems]
  split
  · next items d hread =>
    rw [hread] at hscans hlast
    rw [hlast d rfl] at hscans
    exact hscans
  · next items error hread =>
    rw [hread] at hscans
    exact ⟨last, by simpa [Token.references] using hscans⟩

theorem readSet_meets (begin : Nat) {c d : Cursor source} (hbracket : c.next? = some ('[', d)) :
    (readSet begin d).Meets references ⟨c, .topLevel⟩ .topLevel := by
  have hahead := Cursor.next?_eq_some_iff.mp hbracket
  rw [readSet]
  split
  · next e hcaret =>
    refine (readItems_meets begin true e).of_passes (.openClassNot ?_)
    rw [hahead, Cursor.next?_eq_some_iff.mp hcaret]
  · next hcaret =>
    refine (readItems_meets begin false d).of_passes (.openClass hahead ?_)
    intro hhead
    obtain ⟨rest, hrest⟩ := List.head?_eq_some_iff.mp hhead
    obtain ⟨e, hnext, -⟩ := Cursor.exists_next?_eq_some hrest
    exact hcaret e hnext

/-- A parenthesis and the signs that say what it means are signs like others. -/
theorem readGroup_meets (begin : Nat) (c : Cursor source) :
    (readGroup begin c).Meets references ⟨c, .topLevel⟩ .topLevel := by
  have hsign {c d : Cursor source} {x : Char} (hnext : c.next? = some (x, d))
      (hplain : x ≠ '\\' ∧ x ≠ '[') : Stand.Passes ⟨c, .topLevel⟩ [] ⟨d, .topLevel⟩ :=
    .sign (Cursor.next?_eq_some_iff.mp hnext) hplain.1 hplain.2
  rw [readGroup]
  split
  · next d hquestion =>
    split
    · next e hkind => exact .head (hsign hquestion (by decide)) (.single (hsign hkind (by decide)))
    · next e hkind => exact .head (hsign hquestion (by decide)) (.single (hsign hkind (by decide)))
    · next e hkind => exact .head (hsign hquestion (by decide)) (.single (hsign hkind (by decide)))
    · exact Reading.meets_broken_none _
  · exact .refl

theorem readFrom_meets {c d : Cursor source} {x : Char} (hnext : c.next? = some (x, d)) :
    (readFrom c.offset x d).Meets references ⟨c, .topLevel⟩ .topLevel := by
  have hahead := Cursor.next?_eq_some_iff.mp hnext
  unfold readFrom
  split
  case h_9 => exact (readGroup_meets _ d).of_passes (.sign hahead (by decide) (by decide))
  case h_10 => exact readSet_meets _ hnext
  case h_11 =>
    cases hread : Escape.read c.offset .topLevel d with
    | read value e =>
      cases value with
      | inl reference => exact .single (Escape.passes_of_read_eq_inl hahead hread)
      | inr y => exact .single (Escape.passes_of_read_eq_inr hahead hread)
    | broken kept error =>
      have hbreaks := Escape.read_breaksOff c.offset .topLevel d
      rw [hread] at hbreaks
      rw [hbreaks.1]
      exact Reading.meets_broken_none error
  case h_12 hbracket hbackslash =>
    exact .single (.sign hahead hbackslash hbracket)
  all_goals exact .single (.sign hahead (by decide) (by decide))

end Token

namespace Tokens

/-- The references in the tokens from a place on are met from there on, and if no token is broken
these are all up to the end. -/
theorem scans_readAll (c : Cursor source) :
    ∃ last, Stand.Scans ⟨c, .topLevel⟩ (readAll c).references last ∧
      ((readAll c).fault = none → last.place.AtEnd ∧ last.enclosure = .topLevel) := by
  fun_induction readAll c with
  | case1 c hnext => exact ⟨_, .refl, fun _ => ⟨Cursor.next?_eq_none_iff.mp hnext, rfl⟩⟩
  | case2 c x d hnext token e hread rest ih =>
    have hmeets := Token.readFrom_meets hnext
    rw [hread] at hmeets
    obtain ⟨last, hscans, hend⟩ := ih
    exact ⟨last, hmeets.trans hscans, hend⟩
  | case3 c x d hnext kept error hbroken =>
    have hmeets := Token.readFrom_meets hnext
    rw [hbroken] at hmeets
    obtain ⟨last, hscans⟩ := hmeets
    refine ⟨last, ?_, ?_⟩
    · simpa [references, List.flatMap_map] using hscans
    · intro hnone
      cases hnone

end Tokens

/-! ### The enclosures of references -/

/-- What was read, as far as the reading came. -/
def Reading.value? {α : Type} : Reading α source → Option α
  | read value _ => some value
  | broken kept _ => kept

theorem Escape.enclosure_of_read_eq_inl {begin : Nat} {enclosure : Enclosure} {c d : Cursor source}
    {reference : PropertyReference} (hread : read begin enclosure c = .read (.inl reference) d) :
    reference.enclosure = enclosure := by
  obtain ⟨name, negated, -, -, rfl⟩ := read_eq_read_inl_iff.mp hread
  rfl

namespace ClassItem

variable {classBegin begin : Nat} {negated : Bool} {c : Cursor source} {item : ClassItem}
  {reference : PropertyReference}

theorem enclosure_of_readUpper {lo : Char}
    (hvalue : (readUpper classBegin begin negated lo c).value? = some item)
    (hmem : reference ∈ item.references) : reference.enclosure = .characterClass negated := by
  cases hread : readUpper classBegin begin negated lo c with
  | read other d =>
    rw [hread] at hvalue
    cases hvalue
    rcases readUpper_eq_read_iff.mp hread with
      ⟨_, rfl, _⟩ | ⟨_, _, _, _, _, rfl⟩
    · cases hmem
    · cases hmem
  | broken kept error =>
    rw [hread] at hvalue
    cases hvalue
    obtain ⟨d, e, f, other, -, -, hescape, rfl⟩ := exists_of_readUpper_eq_broken hread
    rw [List.mem_singleton.mp hmem]
    exact Escape.enclosure_of_read_eq_inl hescape

theorem enclosure_of_read (hvalue : (read classBegin negated c).value? = some item)
    (hmem : reference ∈ item.references) : reference.enclosure = .characterClass negated := by
  rw [read] at hvalue
  split at hvalue
  · cases hvalue
  · next d hbackslash =>
    split at hvalue
    · next other e hescape =>
      cases hvalue
      rw [List.mem_singleton.mp hmem]
      exact Escape.enclosure_of_read_eq_inl hescape
    · exact enclosure_of_readUpper hvalue hmem
    · cases hvalue
  · exact enclosure_of_readUpper hvalue hmem

theorem enclosure_of_mem_readAll
    (hmem : reference ∈ (readAll classBegin negated c).1.flatMap references) :
    reference.enclosure = .characterClass negated := by
  fun_induction readAll classBegin negated c with
  | case1 => cases hmem
  | case2 c kept error hbroken =>
    obtain ⟨item, hitem, hmem⟩ := List.mem_flatMap.mp hmem
    have hvalue : (read classBegin negated c).value? = some item := by
      rw [hbroken]
      exact Option.mem_toList.mp hitem
    exact enclosure_of_read hvalue hmem
  | case3 c item d hitem rest result hrest _ ih =>
    rw [hrest] at ih
    rw [List.flatMap_cons, List.mem_append] at hmem
    rcases hmem with hmem | hmem
    · exact enclosure_of_read (by rw [hitem]; rfl) hmem
    · exact ih hmem

end ClassItem

/-- A reference that is a token by itself stands outside of classes, and one in a class knows how
the class begins. -/
def Token.Enclosed : Token → Prop
  | property reference => reference.enclosure = .topLevel
  | set negated items =>
    ∀ reference ∈ items.flatMap ClassItem.references,
      reference.enclosure = .characterClass negated
  | _ => True

namespace Token

theorem Enclosed.ne_topLevel {negated : Bool} {items : List ClassItem}
    (henclosed : (set negated items).Enclosed) :
    ∀ reference ∈ items.flatMap ClassItem.references, reference.enclosure ≠ .topLevel := by
  intro reference hmem
  rw [henclosed reference hmem]
  exact nofun

theorem enclosed_of_readItems {begin : Nat} {negated : Bool} {c : Cursor source} {token : Token}
    (hvalue : (readItems begin negated c).value? = some token) : token.Enclosed := by
  have henclosed {items : List ClassItem} {result : Except SyntaxError (Cursor source)}
      (hread : ClassItem.readAll begin negated c = (items, result)) :
      (set negated items).Enclosed := by
    intro reference hmem
    have hmemAll :
        reference ∈ (ClassItem.readAll begin negated c).1.flatMap ClassItem.references := by
      rw [hread]
      exact hmem
    exact ClassItem.enclosure_of_mem_readAll hmemAll
  rw [readItems] at hvalue
  split at hvalue
  · next hread =>
    cases hvalue
    exact henclosed hread
  · next hread =>
    cases hvalue
    exact henclosed hread

theorem enclosed_of_readGroup {begin : Nat} {c : Cursor source} {token : Token}
    (hvalue : (readGroup begin c).value? = some token) : token.Enclosed := by
  rw [readGroup] at hvalue
  split at hvalue
  · split at hvalue
    · cases hvalue
      trivial
    · cases hvalue
      trivial
    · cases hvalue
      trivial
    · cases hvalue
  · cases hvalue
    trivial

theorem enclosed_of_readFrom {begin : Nat} {x : Char} {c : Cursor source} {token : Token}
    (hvalue : (readFrom begin x c).value? = some token) : token.Enclosed := by
  unfold readFrom at hvalue
  split at hvalue
  case h_9 => exact enclosed_of_readGroup hvalue
  case h_10 =>
    rw [readSet] at hvalue
    split at hvalue
    · exact enclosed_of_readItems hvalue
    · exact enclosed_of_readItems hvalue
  case h_11 =>
    cases hread : Escape.read begin .topLevel c with
    | read value d =>
      rw [hread] at hvalue
      cases hvalue
      cases value with
      | inl reference => exact Escape.enclosure_of_read_eq_inl hread
      | inr y => trivial
    | broken kept error =>
      have hbreaks := Escape.read_breaksOff begin .topLevel c
      rw [hread] at hbreaks hvalue
      rw [hbreaks.1] at hvalue
      cases hvalue
  all_goals
    cases hvalue
    trivial

end Token

theorem Tokens.enclosed_of_mem_readAll {c : Cursor source} {placed : PlacedToken}
    (hmem : placed ∈ (readAll c).tokens) : placed.token.Enclosed := by
  fun_induction readAll c with
  | case1 => cases hmem
  | case2 c x d hnext token e hread rest ih =>
    rcases List.mem_cons.mp hmem with rfl | hmem
    · exact Token.enclosed_of_readFrom (by rw [hread]; rfl)
    · exact ih hmem
  | case3 c x d hnext kept error hbroken =>
    obtain ⟨token, htoken, rfl⟩ := List.mem_map.mp hmem
    have hvalue : (Token.readFrom c.offset x d).value? = some token := by
      rw [hbroken]
      exact Option.mem_toList.mp htoken
    exact Token.enclosed_of_readFrom hvalue

end EmojiPatterns
