import EmojiPatterns.Proofs.Soundness
import EmojiPatterns.Proofs.PatternEnds

/-!
# Patterns compose

What stands around a pattern does not change how it is read, so patterns can be put together as
texts: in a group, one after another, with a bar between them, or as a lookahead.  The pattern that
comes out reaches the places of the parts, put together as its tree says.  Main statements: a group
of a pattern is an atom (`Derives.inGroup`), a choice lists the places of its branches in turn
(`Node.reached_choice`), and what compiles can be put together (`Pattern.patterns_compose`).
-/

namespace EmojiPatterns

variable {resolver : Resolver} {text : List Char}

/-! ### Places that trees reach -/

namespace Node

theorem reached_seq (first second : Node) (c : Cursor text) :
    (seq first second).reached c = (first.reached c).flatMap second.reached :=
  (shows_seq (first.shows_reached c) second.shows_reached).reached_eq

theorem reached_alt (first second : Node) (c : Cursor text) :
    (alt first second).reached c = first.reached c ++ second.reached c :=
  (shows_alt (first.shows_reached c) (second.shows_reached c)).reached_eq

theorem reached_look (body : Node) (negated : Bool) (c : Cursor text) :
    (look body negated).reached c = if (body.reached c).isEmpty = negated then [c] else [] :=
  (shows_look negated (body.shows_reached c)).reached_eq

theorem reached_choice (first : Node) (rest : List Node) (c : Cursor text) :
    (choice first rest).reached c = (first :: rest).flatMap fun node => node.reached c := by
  induction rest generalizing first with
  | nil => exact (List.append_nil _).symm
  | cons second rest ih =>
    rw [choice, reached_alt, ih]
    rfl

theorem mem_reached_textEnd_iff {c d : Cursor text} :
    d ∈ textEnd.reached c ↔ c.AtEnd ∧ d = c := by
  rw [(shows_textEnd c).reached_eq, ends, steps, Steps.stay, Cursor.atEnd_iff_offset]
  simp

end Node

/-- A match goes to the place that is reached first. -/
theorem Pattern.matchAt_eq_head? (pattern : Pattern) (c : Cursor text) :
    pattern.matchAt text c.offset = (pattern.root.reached c).head?.map (·.offset) := by
  have hend : pattern.endFrom? c = (pattern.root.reached c).head? := by
    rw [endFrom?, Node.findSome?_eq_findSome?_reached]
    cases pattern.root.reached c <;> rfl
  rw [matchAt, Cursor.at?_offset, Option.bind_some, hend]

/-! ### Texts put together -/

/-- A resolver that knows no name. -/
def Resolver.nameless : Resolver :=
  ⟨⟨.pinned, []⟩, fun _ => none, true⟩

/-- A source in a group. -/
def inGroup (source : List Char) : List Char :=
  ['(', '?', ':'] ++ (source ++ [')'])

namespace Derives

variable {left right : Phrase}

theorem alternation_of_atom (hatom : Derives resolver .atom left) :
    Derives resolver .alternation left :=
  hatom.quantified_of_atom.concat_of_quantified.alternation_of_concat

theorem inGroup (hphrase : Derives resolver .alternation left) :
    Derives resolver .atom ⟨EmojiPatterns.inGroup left.text, left.bare, left.node⟩ :=
  .group .plain hphrase

/-- Atoms one after another. -/
theorem alternation_of_atoms {atoms : List Phrase}
    (hatoms : ∀ atom ∈ atoms, Derives resolver .atom atom) :
    Derives resolver .alternation ⟨atoms.flatMap (·.text), Phrase.bareAlone atoms,
      Node.sequence (atoms.map (·.node))⟩ :=
  (Derives.concat fun atom hmem => (hatoms atom hmem).quantified_of_atom).alternation_of_concat

/-- A bar puts the branches of both sides in one row. -/
theorem exists_bar (hleft : Derives resolver .alternation left)
    (hright : Derives resolver .alternation right) :
    ∃ phrase, Derives resolver .alternation phrase ∧
      phrase.text = left.text ++ '|' :: right.text ∧
      ∀ (text : List Char) (c : Cursor text),
        phrase.node.reached c = left.node.reached c ++ right.node.reached c := by
  cases hleft with
  | @alternation first rest hfirst hrest =>
    cases hright with
    | @alternation second more hsecond hmore =>
      have hbranches : ∀ branch ∈ rest ++ second :: more, Derives resolver .concat branch := by
        simpa [or_imp, forall_and] using ⟨hrest, hsecond, hmore⟩
      refine ⟨_, .alternation hfirst hbranches, by simp, ?_⟩
      intro text c
      simp only [Node.reached_choice, List.map_append, List.map_cons, List.flatMap_cons,
        List.flatMap_append, List.append_assoc]

end Derives

/-! ### Patterns put together -/

namespace Pattern

/-- A source compiles, its pattern shows the places of a list, from each place where it starts, to a
visitor that never stops, and a match goes to the first of them. -/
def LeadsTo (resolver : Resolver) (source : List Char)
    (places : ∀ text : List Char, Cursor text → List (Cursor text)) : Prop :=
  ∃ pattern, compile resolver source = .ok pattern ∧ ∀ (text : List Char) (c : Cursor text),
    pattern.root.reached c = places text c ∧
      pattern.matchAt text c.offset = (places text c).head?.map (·.offset)

theorem leadsTo_of_derives {places : ∀ text : List Char, Cursor text → List (Cursor text)}
    {phrase : Phrase} {source : List Char} (hphrase : Derives resolver .alternation phrase)
    (htext : phrase.text = source)
    (hreached : ∀ (text : List Char) (c : Cursor text), phrase.node.reached c = places text c) :
    LeadsTo resolver source places := by
  refine ⟨⟨source, phrase.node⟩, compile_of_derives hphrase htext, ?_⟩
  intro text c
  refine ⟨hreached text c, ?_⟩
  rw [matchAt_eq_head?, ← hreached]

/-- A group reaches what its kind makes of its body. -/
theorem leadsTo_group {kind : GroupKind} {opening : List Char} {phrase : Phrase}
    {places : ∀ text : List Char, Cursor text → List (Cursor text)}
    (hopening : kind.Opening opening) (hphrase : Derives resolver .alternation phrase)
    (hreached : ∀ (text : List Char) (c : Cursor text),
      (kind.wrap phrase.node).reached c = places text c) :
    LeadsTo resolver (opening ++ (phrase.text ++ [')'])) places :=
  leadsTo_of_derives (Derives.group hopening hphrase).alternation_of_atom rfl hreached

/-- Signs may stand behind a group that is not bare. -/
theorem compile_group_signs {kind : GroupKind} {opening : List Char} {phrase : Phrase}
    {signs : List Sign} (hopening : kind.Opening opening)
    (hphrase : Derives resolver .alternation phrase)
    (hsigns : kind.bare phrase.bare = true → signs = []) :
    compile resolver (opening ++ (phrase.text ++ [')']) ++ signs.map Sign.char) =
      .ok ⟨opening ++ (phrase.text ++ [')']) ++ signs.map Sign.char,
        (kind.wrap phrase.node).repeated signs⟩ := by
  have hitem := Derives.quantified (.group hopening hphrase) hsigns
  exact compile_of_derives hitem.concat_of_quantified.alternation_of_concat rfl

/-- A pattern takes a whole text if it matches between the start and the end. -/
theorem isFullMatch_eq_isSome_matchAt {pattern whole : Pattern}
    (hwhole : whole.root = .seq .textStart (.seq pattern.root .textEnd)) (text : List Char) :
    pattern.isFullMatch text = (whole.matchAt text 0).isSome := by
  have hstart : Node.textStart.reached (Cursor.start text) = [Cursor.start text] := by
    rw [(Node.shows_textStart (Cursor.start text)).reached_eq]
    rfl
  have hmatch := matchAt_eq_head? whole (Cursor.start text)
  rw [hwhole, Node.reached_seq, hstart, List.flatMap_singleton, Node.reached_seq] at hmatch
  rw [show (0 : Nat) = (Cursor.start text).offset from rfl, hmatch, Bool.eq_iff_iff, isFullMatch,
    Node.findSome?_eq_findSome?_reached, List.findSome?_isSome_iff, Option.isSome_map,
    List.isSome_head?]
  constructor
  · intro hends
    obtain ⟨d, hmem, hsome⟩ := hends
    by_cases hend : d.AtEnd
    · exact List.ne_nil_of_mem
        (List.mem_flatMap.mpr ⟨d, hmem, Node.mem_reached_textEnd_iff.mpr ⟨hend, rfl⟩⟩)
    · simp [if_neg hend] at hsome
  · intro hne
    obtain ⟨e, he⟩ := List.exists_mem_of_ne_nil _ hne
    obtain ⟨d, hmem, hd⟩ := List.mem_flatMap.mp he
    obtain ⟨hend, -⟩ := Node.mem_reached_textEnd_iff.mp hd
    exact ⟨d, hmem, by simp [if_pos hend]⟩

theorem leadsTo_row {left right : Phrase} (hleft : Derives resolver .alternation left)
    (hright : Derives resolver .alternation right) :
    LeadsTo resolver (inGroup left.text ++ inGroup right.text)
      (fun _ c => (left.node.reached c).flatMap right.node.reached) := by
  have hrow : ∀ atom ∈ [(⟨inGroup left.text, left.bare, left.node⟩ : Phrase),
      ⟨inGroup right.text, right.bare, right.node⟩], Derives resolver .atom atom := by
    simpa using ⟨hleft.inGroup, hright.inGroup⟩
  exact leadsTo_of_derives (Derives.alternation_of_atoms hrow) (by simp)
    fun _ => Node.reached_seq left.node right.node

theorem compile_between_ends {phrase : Phrase} (hphrase : Derives resolver .alternation phrase) :
    compile resolver ('^' :: (inGroup phrase.text ++ ['$'])) =
      .ok ⟨'^' :: (inGroup phrase.text ++ ['$']),
        .seq .textStart (.seq phrase.node .textEnd)⟩ := by
  have hrow : ∀ atom ∈ [(⟨['^'], true, .textStart⟩ : Phrase),
      ⟨inGroup phrase.text, phrase.bare, phrase.node⟩, ⟨['$'], true, .textEnd⟩],
      Derives resolver .atom atom := by
    simpa using ⟨.textStart, hphrase.inGroup, .textEnd⟩
  exact compile_of_derives (Derives.alternation_of_atoms hrow) (by simp)

/-- What compiles can be put together in groups, with a bar, one after another, as lookaheads and
between the signs for the start and the end, and reaches the places that its parts reach, put
together in the same way. -/
theorem patterns_compose {p q : List Char} {left right : Pattern}
    (hleft : compile resolver p = .ok left) (hright : compile resolver q = .ok right) :
    LeadsTo resolver p (fun _ c => left.root.reached c) ∧
    LeadsTo resolver (['('] ++ (p ++ [')'])) (fun _ c => left.root.reached c) ∧
    LeadsTo resolver (inGroup p) (fun _ c => left.root.reached c) ∧
    LeadsTo resolver (p ++ '|' :: q) (fun _ c => left.root.reached c ++ right.root.reached c) ∧
    LeadsTo resolver (inGroup p ++ inGroup q)
      (fun _ c => (left.root.reached c).flatMap right.root.reached) ∧
    LeadsTo resolver (['(', '?', '='] ++ (p ++ [')']))
      (fun _ c => if (left.root.reached c).isEmpty then [] else [c]) ∧
    LeadsTo resolver (['(', '?', '!'] ++ (p ++ [')']))
      (fun _ c => if (left.root.reached c).isEmpty then [c] else []) ∧
    ∃ whole, compile resolver ('^' :: (inGroup p ++ ['$'])) = .ok whole ∧
      ∀ text, left.isFullMatch text = true ↔ (whole.matchAt text 0).isSome = true := by
  obtain ⟨-, first, hfirst, rfl, hfirstnode⟩ := compile_eq_ok_iff_derives.mp hleft
  obtain ⟨-, second, hsecond, rfl, hsecondnode⟩ := compile_eq_ok_iff_derives.mp hright
  rw [← hfirstnode, ← hsecondnode]
  refine ⟨leadsTo_of_derives hfirst rfl fun _ _ => rfl,
    leadsTo_group .capture hfirst fun _ _ => rfl, leadsTo_group .plain hfirst fun _ _ => rfl,
    ?bar, ?row, ?look, ?lookNot, ?whole⟩
  case bar =>
    obtain ⟨phrase, hphrase, htext, hreached⟩ := hfirst.exists_bar hsecond
    exact leadsTo_of_derives hphrase htext hreached
  case row => exact leadsTo_row hfirst hsecond
  case look =>
    apply leadsTo_group .look hfirst
    intro text c
    rw [GroupKind.wrap, Node.reached_look]
    cases (first.node.reached c).isEmpty <;> rfl
  case lookNot =>
    apply leadsTo_group .lookNot hfirst
    intro text c
    rw [GroupKind.wrap, Node.reached_look]
  case whole =>
    have hwhole := compile_between_ends hfirst
    rw [hfirstnode] at hwhole
    refine ⟨_, hwhole, ?_⟩
    intro text
    exact Bool.eq_iff_iff.mp (isFullMatch_eq_isSome_matchAt rfl text)

theorem patterns_compose_char_end :
    compile .nameless ['a'] = .ok ⟨['a'], .char 'a'⟩ ∧
      compile .nameless ['$'] = .ok ⟨['$'], .textEnd⟩ ∧
      LeadsTo .nameless ['a', '|', '$']
        (fun _ c => (Node.char 'a').reached c ++ Node.textEnd.reached c) := by
  have hchar : compile .nameless ['a'] = .ok ⟨['a'], .char 'a'⟩ :=
    compile_of_derives (Derives.char (by decide)).alternation_of_atom rfl
  have hend : compile .nameless ['$'] = .ok ⟨['$'], .textEnd⟩ :=
    compile_of_derives Derives.textEnd.alternation_of_atom rfl
  exact ⟨hchar, hend, (patterns_compose hchar hend).2.2.2.1⟩

end Pattern

end EmojiPatterns
