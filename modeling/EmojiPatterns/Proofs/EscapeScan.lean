import EmojiPatterns.Proofs.Spelling
import Mathlib.Data.List.Pairwise

/-!
# Where escapes stand

Going through a source from its start, one only has to know whether a class is open to tell where
every escape stands: a bracket that is not escaped opens a class outside of classes and closes it
inside.  `Stand.Scans` says so without the readers of tokens; it stops where a backslash is followed
by nothing that can be escaped.  Main statements: there is one way through a source
(`Stand.Scans.total`), and the part of a source where an escape stands determines the escape
(`PropertyReference.StandsIn.eq_of_span_eq`).
-/

namespace EmojiPatterns

variable {source : List Char}

/-- The bracket that opens or closes the next class. -/
def Enclosure.bracket : Enclosure → Char
  | topLevel => '['
  | characterClass _ => ']'

/-- A place in a source and whether it is inside of a class. -/
@[ext]
structure Stand (source : List Char) where
  place : Cursor source
  enclosure : Enclosure

namespace Stand

def start (source : List Char) : Stand source :=
  ⟨Cursor.start source, .topLevel⟩

/-- One sign, one escape or the opening of a class is passed, with the reference in it if it has
one. -/
inductive Passes : Stand source → List PropertyReference → Stand source → Prop where
  | sign {c d : Cursor source} {enclosure : Enclosure} {x : Char} (hahead : c.ahead = x :: d.ahead)
      (hbackslash : x ≠ '\\') (hbracket : x ≠ enclosure.bracket) :
      Passes ⟨c, enclosure⟩ [] ⟨d, enclosure⟩
  | char {c d : Cursor source} {enclosure : Enclosure} {word : List Char} {x : Char}
      (hahead : c.ahead = '\\' :: (word ++ d.ahead)) (hword : Escape.Spells word x) :
      Passes ⟨c, enclosure⟩ [] ⟨d, enclosure⟩
  | property {c d : Cursor source} {enclosure : Enclosure} {negated : Bool} {name : List Char}
      (hahead : c.ahead = '\\' :: (Escape.ofName negated name ++ d.ahead))
      (hname : Escape.IsName name) :
      Passes ⟨c, enclosure⟩
        [⟨String.ofList name, negated, enclosure, ⟨c.offset, d.offset⟩⟩] ⟨d, enclosure⟩
  | openClass {c d : Cursor source} (hahead : c.ahead = '[' :: d.ahead)
      (hcaret : d.ahead.head? ≠ some '^') :
      Passes ⟨c, .topLevel⟩ [] ⟨d, .characterClass false⟩
  | openClassNot {c d : Cursor source} (hahead : c.ahead = '[' :: '^' :: d.ahead) :
      Passes ⟨c, .topLevel⟩ [] ⟨d, .characterClass true⟩
  | closeClass {c d : Cursor source} {negated : Bool} (hahead : c.ahead = ']' :: d.ahead) :
      Passes ⟨c, .characterClass negated⟩ [] ⟨d, .topLevel⟩

/-- The references that are met between two places. -/
inductive Scans : Stand source → List PropertyReference → Stand source → Prop where
  | refl {stand : Stand source} : Scans stand [] stand
  | head {stand next last : Stand source} {met rest : List PropertyReference}
      (hpasses : Passes stand met next) (hrest : Scans next rest last) :
      Scans stand (met ++ rest) last

/-! ### One way through a source -/

theorem Passes.lt {stand next : Stand source} {met : List PropertyReference}
    (hpasses : Passes stand met next) : stand.place < next.place := by
  have hbehind : ∃ x rest, stand.place.ahead = (x :: rest) ++ next.place.ahead := by
    cases hpasses with
    | sign hahead => exact ⟨_, [], hahead⟩
    | char hahead => exact ⟨_, _, hahead⟩
    | property hahead => exact ⟨_, _, hahead⟩
    | openClass hahead => exact ⟨_, [], hahead⟩
    | openClassNot hahead => exact ⟨_, ['^'], hahead⟩
    | closeClass hahead => exact ⟨_, [], hahead⟩
  obtain ⟨x, rest, hahead⟩ := hbehind
  have hoffset := Cursor.offset_eq_of_ahead_eq hahead
  have hpos := x.utf8Size_pos
  rw [utf8Length_cons] at hoffset
  rw [Cursor.lt_iff_offset]
  omega

/-- What is passed at a backslash is what the escapes' reader finds behind it. -/
theorem Passes.exists_read_eq {c d : Cursor source} {enclosure : Enclosure} {next : Stand source}
    {met : List PropertyReference} (hpasses : Passes ⟨c, enclosure⟩ met next)
    (hbackslash : c.ahead = '\\' :: d.ahead) :
    ∃ value, Escape.read c.offset enclosure d = .read value next.place ∧
      next.enclosure = enclosure ∧ met = value.elim (fun reference => [reference]) fun _ => [] := by
  cases hpasses with
  | sign hahead hplain =>
    rw [hbackslash, List.cons.injEq] at hahead
    exact absurd hahead.1.symm hplain
  | @char _ e _ word x hahead hword =>
    rw [hbackslash, List.cons.injEq] at hahead
    exact ⟨.inr x, Escape.read_of_spells _ _ hword hahead.2, rfl, rfl⟩
  | property hahead hname =>
    rw [hbackslash, List.cons.injEq] at hahead
    exact ⟨.inl _, Escape.read_of_isName _ _ _ hname hahead.2, rfl, rfl⟩
  | openClass hahead | openClassNot hahead | closeClass hahead => simp [hbackslash] at hahead

/-- What is passed from a place on depends on the text alone. -/
theorem Passes.deterministic {stand left right : Stand source}
    {metLeft metRight : List PropertyReference} (hleft : Passes stand metLeft left)
    (hright : Passes stand metRight right) : metLeft = metRight ∧ left = right := by
  obtain ⟨c, enclosure⟩ := stand
  by_cases hbackslash : ∃ rest, c.ahead = '\\' :: rest
  · obtain ⟨rest, hrest⟩ := hbackslash
    obtain ⟨d, hd⟩ := Cursor.exists_ahead_eq (show c.ahead = ['\\'] ++ rest from hrest)
    rw [← hd] at hrest
    obtain ⟨value, hvalue, henclosure, rfl⟩ := hleft.exists_read_eq hrest
    obtain ⟨other, hother, hsame, rfl⟩ := hright.exists_read_eq hrest
    rw [hvalue, Reading.read.injEq] at hother
    rw [hother.1]
    exact ⟨rfl, Stand.ext hother.2 (henclosure.trans hsame.symm)⟩
  · rw [not_exists] at hbackslash
    have hplace := @Cursor.ext_ahead source
    cases hleft with
    | char hahead | property hahead => exact absurd hahead (hbackslash _)
    | sign | openClass | openClassNot | closeClass =>
      cases hright with
      | char hother | property hother => exact absurd hother (hbackslash _)
      | _ => grind [Enclosure.bracket]

namespace Scans

variable {stand middle last : Stand source} {met rest : List PropertyReference}

theorem single (hpasses : Passes stand met last) : Scans stand met last := by
  have hscans : Scans stand (met ++ []) last := .head hpasses .refl
  rwa [List.append_nil] at hscans

theorem trans (hfirst : Scans stand met middle) (hsecond : Scans middle rest last) :
    Scans stand (met ++ rest) last := by
  induction hfirst with
  | refl => exact hsecond
  | head hpasses _ ih =>
    rw [List.append_assoc]
    exact .head hpasses (ih hsecond)

/-- Of two ways from one place one goes on from where the other ends. -/
theorem total {other : Stand source} {metOther : List PropertyReference}
    (hscans : Scans stand met last) (hother : Scans stand metOther other) :
    (∃ rest, metOther = met ++ rest ∧ Scans last rest other) ∨
      ∃ rest, met = metOther ++ rest ∧ Scans other rest last := by
  induction hscans generalizing metOther with
  | refl => exact .inl ⟨metOther, rfl, hother⟩
  | @head stand next last met rest hpasses hrest ih =>
    cases hother with
    | refl => exact .inr ⟨met ++ rest, rfl, .head hpasses hrest⟩
    | head hpassesOther hrestOther =>
      obtain ⟨rfl, rfl⟩ := hpasses.deterministic hpassesOther
      rcases ih hrestOther with ⟨more, rfl, hmore⟩ | ⟨more, rfl, hmore⟩
      · exact .inl ⟨more, (List.append_assoc _ _ _).symm, hmore⟩
      · exact .inr ⟨more, (List.append_assoc _ _ _).symm, hmore⟩

theorem eq_of_atEnd (hscans : Scans stand met last) (hend : stand.place.AtEnd) :
    met = [] ∧ last = stand := by
  cases hscans with
  | refl => exact ⟨rfl, rfl⟩
  | head hpasses _ =>
    have hlt := Cursor.ahead_length_lt hpasses.lt
    rw [hend] at hlt
    exact absurd hlt (Nat.not_lt_zero _)

end Scans

end Stand

/-! ### What is met -/

namespace PropertyReference

/-- Between two places the escape is written that a reference stands for, and its span is there. -/
def WrittenBetween (reference : PropertyReference) (c d : Cursor source) : Prop :=
  ∃ name, Escape.IsName name ∧ reference.name = String.ofList name ∧
    c.ahead = '\\' :: (Escape.ofName reference.negated name ++ d.ahead) ∧
    reference.span = ⟨c.offset, d.offset⟩

/-- A reference that is met on the way through a source. -/
def StandsIn (source : List Char) (reference : PropertyReference) : Prop :=
  ∃ met last, (Stand.start source).Scans met last ∧ reference ∈ met

/-- The references that are met on the way to the end of a source. -/
def AllStandIn (source : List Char) (references : List PropertyReference) : Prop :=
  ∃ last, (Stand.start source).Scans references last ∧ last.place.AtEnd

end PropertyReference

namespace Stand

variable {stand next last : Stand source} {met : List PropertyReference}
  {reference : PropertyReference}

theorem Passes.eq_singleton_of_mem (hpasses : Passes stand met next) (hmem : reference ∈ met) :
    met = [reference] ∧ reference.WrittenBetween stand.place next.place := by
  cases hpasses with
  | property hahead hname =>
    rw [List.mem_singleton.mp hmem]
    exact ⟨rfl, _, hname, rfl, hahead, rfl⟩
  | _ => cases hmem

/-- What is met from a place on is written there. -/
theorem Scans.exists_writtenBetween (hscans : Scans stand met last) (hmem : reference ∈ met) :
    ∃ c d : Cursor source, stand.place ≤ c ∧ reference.WrittenBetween c d := by
  induction hscans with
  | refl => cases hmem
  | head hpasses _ ih =>
    rcases List.mem_append.mp hmem with hmem | hmem
    · exact ⟨_, _, Cursor.le_refl _, (hpasses.eq_singleton_of_mem hmem).2⟩
    · obtain ⟨c, d, hle, hwritten⟩ := ih hmem
      exact ⟨c, d, Cursor.le_trans (Cursor.le_of_lt hpasses.lt) hle, hwritten⟩

/-- The references are met in the order of their starts. -/
theorem Scans.pairwise_start_lt (hscans : Scans stand met last) :
    met.Pairwise fun first second => first.span.start < second.span.start := by
  induction hscans with
  | refl => exact .nil
  | @head stand next last met rest hpasses hrest ih =>
    rw [List.pairwise_append]
    refine ⟨?_, ih, ?_⟩
    · cases hpasses with
      | property => exact List.pairwise_singleton _ _
      | _ => exact .nil
    · intro first hfirst second hsecond
      obtain ⟨-, -, -, -, -, hfirst⟩ := hpasses.eq_singleton_of_mem hfirst
      obtain ⟨c, d, hle, -, -, -, -, hsecond⟩ := hrest.exists_writtenBetween hsecond
      rw [hfirst, hsecond]
      exact Cursor.lt_of_lt_of_le hpasses.lt hle

end Stand

namespace PropertyReference.StandsIn

variable {reference other : PropertyReference}

/-- The part of a source determines the escape that stands there. -/
theorem eq_of_span_eq (hreference : StandsIn source reference) (hother : StandsIn source other)
    (hspan : reference.span = other.span) : reference = other := by
  obtain ⟨met, last, hmet, hmem⟩ := hreference
  obtain ⟨metOther, lastOther, hmetOther, hmemOther⟩ := hother
  -- Both are met on the way that goes further, where no two start at one place.
  obtain ⟨all, furthest, hall, hmem, hmemOther⟩ : ∃ all furthest,
      (Stand.start source).Scans all furthest ∧ reference ∈ all ∧ other ∈ all := by
    rcases hmet.total hmetOther with ⟨rest, rfl, -⟩ | ⟨rest, rfl, -⟩
    · exact ⟨_, _, hmetOther, List.mem_append_left _ hmem, hmemOther⟩
    · exact ⟨_, _, hmet, hmem, List.mem_append_left _ hmemOther⟩
  have hapart : all.Pairwise fun first second => first.span ≠ second.span := by
    refine hall.pairwise_start_lt.imp ?_
    intro first second hlt heq
    rw [heq] at hlt
    exact Nat.lt_irrefl _ hlt
  have hsymm : Std.Symm fun first second : PropertyReference => first.span ≠ second.span :=
    ⟨fun _ _ => Ne.symm⟩
  by_cases heq : reference = other
  · exact heq
  · exact absurd hspan (hapart.forall hmem hmemOther heq)

/-- What stands in a source is met on the way to its end, if there is one. -/
theorem mem_of_allStandIn {references : List PropertyReference}
    (hreference : StandsIn source reference) (hall : AllStandIn source references) :
    reference ∈ references := by
  obtain ⟨met, last, hmet, hmem⟩ := hreference
  obtain ⟨final, hall, hend⟩ := hall
  rcases hmet.total hall with ⟨rest, rfl, -⟩ | ⟨rest, rfl, hrest⟩
  · exact List.mem_append_left _ hmem
  · rw [(hrest.eq_of_atEnd hend).1, List.append_nil] at hmem
    exact hmem

end PropertyReference.StandsIn

end EmojiPatterns
