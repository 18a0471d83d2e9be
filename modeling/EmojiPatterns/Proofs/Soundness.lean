import EmojiPatterns.Proofs.Completeness

/-!
# Whatever is read is a phrase

Along a walk through a source the draft always has the text up to the place that was reached: a
scope has the text of its phrases and of the bars among them, and an open group has the text before
it and the sign that opened it.  Each token goes on with that text.  So a source that compiles is a
phrase of the grammar, and compiling accepts exactly the grammar.  Main statements:
`Draft.Spells.advance`, `Pattern.compile_eq_ok_iff_derives`, `Pattern.compiles_iff_derives`.
-/

namespace EmojiPatterns

variable {resolver : Resolver}

/-! ### Scopes -/

/-- A text that a scope was read from: phrases with bars among them. -/
inductive Scope.Spells (resolver : Resolver) : Scope → List Char → Prop where
  | empty : Spells resolver .empty []
  | push {scope : Scope} {text : List Char} {item : Phrase} (begin : Nat)
      (hscope : Spells resolver scope text) (hitem : Derives resolver .quantified item) :
      Spells resolver (scope.push ⟨begin, item.node⟩) (text ++ item.text)
  | divide {scope : Scope} {text : List Char} (hscope : Spells resolver scope text) :
      Spells resolver scope.divide (text ++ ['|'])

namespace Scope.Spells

variable {scope : Scope} {text : List Char}

/-- The latest item of a scope has the latest phrase of its text. -/
theorem exists_last {branches : List Node} {item : Item} {items : List Item}
    (hscope : Spells resolver ⟨branches, item :: items⟩ text) :
    ∃ front last, Spells resolver ⟨branches, items⟩ front ∧ Derives resolver .quantified last ∧
      last.node = item.node ∧ text = front ++ last.text := by
  generalize hwhole : Scope.mk branches (item :: items) = whole at hscope
  cases hscope with
  | empty => cases hwhole
  | push begin hbefore hitem =>
    cases hwhole
    exact ⟨_, _, hbefore, hitem, rfl, rfl⟩
  | divide => cases hwhole

/-- Only what may be repeated takes another sign. -/
theorem quantify {branches : List Node} {item : Item} {items : List Item}
    (hscope : Spells resolver ⟨branches, item :: items⟩ text)
    (hrepeatable : item.node.repeatable = true) (sign : Sign) :
    Spells resolver
      ⟨branches, { item with node := .iterate item.node sign.quantifier } :: items⟩
      (text ++ [sign.char]) := by
  obtain ⟨front, last, hbefore, hlast, hnode, rfl⟩ := hscope.exists_last
  have hbare := hlast.repeatable_eq
  rw [hnode, hrepeatable] at hbare
  cases hlast with
  | @quantified atom signs hatom hsigns =>
    have hmore : Derives resolver .quantified ⟨atom.text ++ (signs ++ [sign]).map Sign.char,
        atom.bare, atom.node.repeated (signs ++ [sign])⟩ := by
      apply Derives.quantified hatom
      intro hatombare
      simp [hatombare] at hbare
    have hspells := hbefore.push item.begin hmore
    have hsame : atom.node.repeated (signs ++ [sign]) = .iterate item.node sign.quantifier := by
      rw [← hnode, Node.repeated, List.foldl_append]
      rfl
    rw [hsame] at hspells
    simpa [Scope.push] using hspells

/-- The branches and the items of a scope are those of phrases. -/
theorem exists_phrases (hscope : Spells resolver scope text) :
    ∃ branches items : List Phrase, (∀ branch ∈ branches, Derives resolver .concat branch) ∧
      (∀ item ∈ items, Derives resolver .quantified item) ∧
      scope.branches.reverse = branches.map (·.node) ∧
      scope.items.reverse.map (·.node) = items.map (·.node) ∧
      text = branches.flatMap (fun branch => branch.text ++ ['|']) ++ items.flatMap (·.text) := by
  induction hscope with
  | empty => exact ⟨[], [], by simp, by simp, rfl, rfl, rfl⟩
  | @push scope text item begin hbefore hitem ih =>
    obtain ⟨branches, items, hbranches, hitems, hnodes, hrest, rfl⟩ := ih
    refine ⟨branches, items ++ [item], hbranches, ?_, hnodes, ?_, ?_⟩
    · simpa [or_imp, forall_and] using ⟨hitems, hitem⟩
    · simp [Scope.push, hrest]
    · simp
  | @divide scope text hbefore ih =>
    obtain ⟨branches, items, hbranches, hitems, hnodes, hrest, rfl⟩ := ih
    refine ⟨branches ++ [⟨items.flatMap (·.text), Phrase.bareAlone items,
      Node.sequence (items.map (·.node))⟩], [], ?_, by simp, ?_, rfl, ?_⟩
    · simpa [or_imp, forall_and] using ⟨hbranches, Derives.concat hitems⟩
    · simp [Scope.divide, Scope.branch, hnodes, hrest]
    · simp

/-- Bars after all branches but the last are bars before all branches but the first. -/
theorem flatMap_bar_append {branches rest : List Phrase} {first last : Phrase}
    (hbranches : branches ++ [last] = first :: rest) :
    branches.flatMap (fun branch => branch.text ++ ['|']) ++ last.text =
      first.text ++ rest.flatMap (fun branch => '|' :: branch.text) := by
  induction branches generalizing first rest with
  | nil =>
    cases hbranches
    simp
  | cons branch branches ih =>
    rw [List.cons_append] at hbranches
    obtain ⟨rfl, rfl⟩ := List.cons.inj hbranches
    cases branches with
    | nil => simp
    | cons second more =>
      rw [List.flatMap_cons, List.append_assoc, ih (List.cons_append ..)]
      simp

/-- A scope is read from an alternation. -/
theorem exists_alternation (hscope : Spells resolver scope text) :
    ∃ phrase, Derives resolver .alternation phrase ∧ phrase.text = text ∧
      phrase.node = scope.node := by
  obtain ⟨branches, items, hbranches, hitems, hnodes, hrest, rfl⟩ := hscope.exists_phrases
  obtain ⟨first, rest, hsplit⟩ := List.exists_cons_of_ne_nil (List.append_ne_nil_of_right_ne_nil
    branches (List.cons_ne_nil (⟨items.flatMap (·.text), Phrase.bareAlone items,
      Node.sequence (items.map (·.node))⟩ : Phrase) []))
  have hall : ∀ branch ∈ first :: rest, Derives resolver .concat branch := by
    rw [← hsplit]
    simpa [or_imp, forall_and] using ⟨hbranches, Derives.concat hitems⟩
  refine ⟨_, .alternation (hall first List.mem_cons_self)
    (fun branch hmem => hall branch (List.mem_cons_of_mem first hmem)), ?_, ?_⟩
  · exact (flatMap_bar_append hsplit).symm
  · symm
    apply Scope.node_eq_choice
    rw [Scope.nodes, hnodes, Scope.branch, hrest]
    simpa using congrArg (List.map (·.node)) hsplit

end Scope.Spells

/-! ### Drafts -/

/-- A text that a draft was read from: what stands before each group that is open, the sign that
opened it, and at last the text of the innermost scope. -/
inductive Draft.Spells (resolver : Resolver) : Draft → List Char → Prop where
  | outermost {scope : Scope} {text : List Char} (hscope : scope.Spells resolver text) :
      Spells resolver ⟨scope, []⟩ text
  | within {scope : Scope} {group : OpenGroup} {outer : List OpenGroup}
      {before opening body : List Char} (houter : Spells resolver ⟨group.outer, outer⟩ before)
      (hopening : group.kind.Opening opening) (hscope : scope.Spells resolver body) :
      Spells resolver ⟨scope, group :: outer⟩ (before ++ (opening ++ body))

namespace Draft.Spells

variable {text word : List Char}

/-- What becomes of the innermost scope becomes of the draft. -/
theorem of_scope {scope next : Scope} {opened : List OpenGroup}
    (hnext : ∀ text, scope.Spells resolver text → next.Spells resolver (text ++ word))
    (hdraft : Spells resolver ⟨scope, opened⟩ text) :
    Spells resolver ⟨next, opened⟩ (text ++ word) := by
  cases hdraft with
  | outermost hscope => exact .outermost (hnext _ hscope)
  | within houter hopening hscope =>
    rw [List.append_assoc, List.append_assoc]
    exact .within houter hopening (hnext _ hscope)

theorem push {draft : Draft} {item : Phrase} (begin : Nat) (hdraft : draft.Spells resolver text)
    (hitem : Derives resolver .quantified item) :
    (draft.push begin item.node).Spells resolver (text ++ item.text) :=
  of_scope (fun _ hscope => hscope.push begin hitem) hdraft

theorem openGroup {draft : Draft} {kind : GroupKind} (begin : Nat)
    (hdraft : draft.Spells resolver text) (hopening : kind.Opening word) :
    Spells resolver ⟨.empty, ⟨kind, begin, draft.scope⟩ :: draft.opened⟩ (text ++ word) := by
  have hspells : Spells resolver ⟨.empty, ⟨kind, begin, draft.scope⟩ :: draft.opened⟩
      (text ++ (word ++ [])) := .within hdraft hopening .empty
  rwa [List.append_nil] at hspells

/-- Closing a group makes an atom of it. -/
theorem closeGroup {scope : Scope} {group : OpenGroup} {outer : List OpenGroup}
    (hdraft : Spells resolver ⟨scope, group :: outer⟩ text) :
    Spells resolver ⟨group.outer.push ⟨group.begin, group.kind.wrap scope.node⟩, outer⟩
      (text ++ [')']) := by
  cases hdraft with
  | within houter hopening hscope =>
    obtain ⟨phrase, hphrase, rfl, hnode⟩ := hscope.exists_alternation
    rw [← hnode, List.append_assoc, List.append_assoc]
    exact houter.push group.begin (Derives.group hopening hphrase).quantified_of_atom

end Draft.Spells

/-! ### Tokens -/

namespace Token

variable {source : List Char} {begin : Nat} {c d : Cursor source} {token : Token}

theorem exists_opening_of_readGroup (hread : readGroup begin c = .read token d) :
    ∃ kind opening, GroupKind.Opening kind opening ∧ token = .openGroup kind ∧
      '(' :: c.ahead = opening ++ d.ahead := by
  rw [readGroup] at hread
  split at hread
  · next e hquestion =>
    rw [Cursor.next?_eq_some_iff.mp hquestion]
    split at hread
    · next hnext =>
      cases hread
      exact ⟨_, _, .plain, rfl, by rw [Cursor.next?_eq_some_iff.mp hnext]; rfl⟩
    · next hnext =>
      cases hread
      exact ⟨_, _, .look, rfl, by rw [Cursor.next?_eq_some_iff.mp hnext]; rfl⟩
    · next hnext =>
      cases hread
      exact ⟨_, _, .lookNot, rfl, by rw [Cursor.next?_eq_some_iff.mp hnext]; rfl⟩
    · cases hread
  · cases hread
    exact ⟨_, _, .capture, rfl, rfl⟩

theorem exists_spellsAll_of_readItems {negated : Bool}
    (hread : readItems begin negated c = .read token d) {draft next : Draft} {span : Span}
    (hadd : draft.add resolver ⟨token, span⟩ = .ok next) :
    ∃ items ranges tests, ClassItem.SpellsAll resolver negated items ranges tests ∧
      c.ahead = items ++ d.ahead ∧ next = draft.push span.start
        (.set ⟨negated, ranges.foldl CharClass.insert .empty, tests⟩) := by
  rw [readItems] at hread
  split at hread
  · next items e hitems =>
    cases hread
    obtain ⟨set, hset, rfl⟩ := Draft.add_set_eq_ok_iff.mp hadd
    obtain ⟨word, ranges, tests, hspells, hahead, rfl⟩ :=
      ClassItem.spellsAll_of_readAll hitems hset
    exact ⟨word, ranges, tests, hspells, hahead, rfl⟩
  · cases hread

theorem exists_atom_of_readSet (hread : readSet begin c = .read token d) {draft next : Draft}
    {span : Span} (hadd : draft.add resolver ⟨token, span⟩ = .ok next) :
    ∃ atom, Derives resolver .atom atom ∧ '[' :: c.ahead = atom.text ++ d.ahead ∧
      next = draft.push span.start atom.node := by
  rw [readSet] at hread
  split at hread
  · next e hcaret =>
    obtain ⟨items, ranges, tests, hitems, hahead, hnext⟩ :=
      exists_spellsAll_of_readItems hread hadd
    refine ⟨_, .setNot hitems, ?_, hnext⟩
    rw [Cursor.next?_eq_some_iff.mp hcaret, hahead]
    rfl
  · next hcaret =>
    obtain ⟨items, ranges, tests, hitems, hahead, hnext⟩ :=
      exists_spellsAll_of_readItems hread hadd
    refine ⟨_, .set hitems ?_, by rw [hahead]; rfl, hnext⟩
    intro hhead
    obtain ⟨rest, rfl⟩ := List.head?_eq_some_iff.mp hhead
    obtain ⟨e, hnext, -⟩ := Cursor.exists_next?_eq_some hahead
    exact hcaret e hnext

theorem exists_atom_of_readEscape
    (hread : ((Escape.read begin .topLevel c).map fun
      | .inl reference => .property reference
      | .inr x => .char x) = .read token d) {draft next : Draft} {span : Span}
    (hadd : draft.add resolver ⟨token, span⟩ = .ok next) :
    ∃ atom, Derives resolver .atom atom ∧ '\\' :: c.ahead = atom.text ++ d.ahead ∧
      next = draft.push span.start atom.node := by
  obtain ⟨value, hescape, rfl⟩ := Reading.map_eq_read_iff.mp hread
  cases value with
  | inr x =>
    obtain ⟨word, hword, hahead⟩ := Escape.read_eq_read_inr_iff.mp hescape
    cases hadd
    exact ⟨_, .escape hword, by rw [hahead]; rfl, rfl⟩
  | inl reference =>
    obtain ⟨name, negated, hname, hahead, rfl⟩ := Escape.read_eq_read_inl_iff.mp hescape
    obtain ⟨node, hresolve, rfl⟩ := Draft.add_property_eq_ok_iff.mp hadd
    rcases Draft.resolve_eq_ok_iff_names.mp hresolve with
      ⟨known, fragment, hknown, rfl⟩ | ⟨known, holds, hknown, rfl⟩
    · exact ⟨_, .strings hname ⟨_, hknown⟩, by rw [hahead]; rfl, rfl⟩
    · exact ⟨_, .chars hname ⟨_, hknown⟩, by rw [hahead]; rfl, rfl⟩

end Token

namespace Draft.Spells

variable {source : List Char}

/-- An atom goes on with the text of the draft. -/
theorem exists_word {draft next : Draft} {text behind ahead : List Char} {begin : Nat}
    (hspells : draft.Spells resolver text)
    (hatom : ∃ atom, Derives resolver .atom atom ∧ behind = atom.text ++ ahead ∧
      next = draft.push begin atom.node) :
    ∃ word, behind = word ++ ahead ∧ next.Spells resolver (text ++ word) := by
  obtain ⟨atom, hatom, hahead, rfl⟩ := hatom
  exact ⟨atom.text, hahead, hspells.push begin hatom.quantified_of_atom⟩

theorem exists_word_of_quantify {draft next : Draft} {text ahead : List Char} {span : Span}
    (sign : Sign) (hspells : draft.Spells resolver text)
    (hadd : draft.quantify sign.quantifier span = .ok next) :
    ∃ word, sign.char :: ahead = word ++ ahead ∧ next.Spells resolver (text ++ word) := by
  obtain ⟨⟨branches, items⟩, opened⟩ := draft
  obtain ⟨item, rest, rfl, hrepeatable, rfl⟩ := Draft.quantify_eq_ok_iff.mp hadd
  refine ⟨[sign.char], rfl, ?_⟩
  exact hspells.of_scope fun _ hscope => hscope.quantify hrepeatable sign

/-- Every token goes on with the text of the draft. -/
theorem advance {stage next : Stage source} {text : List Char}
    (hspells : stage.draft.Spells resolver text) (hadvance : stage.Advance resolver next) :
    ∃ word, stage.place.ahead = word ++ next.place.ahead ∧
      next.draft.Spells resolver (text ++ word) := by
  obtain ⟨c, draft⟩ := stage
  obtain ⟨d, draft'⟩ := next
  obtain ⟨x, e, token, hnext, hread, hadd⟩ := hadvance
  simp only at hspells hnext hread hadd ⊢
  rw [Cursor.next?_eq_some_iff.mp hnext]
  -- One case for each character that starts a token, in the order of `Token.readFrom`: atoms of one
  -- character, the bar, the parenthesis that closes, the signs, and what takes more characters.
  unfold Token.readFrom at hread
  split at hread
  case h_1 =>
    cases hread
    cases hadd
    exact hspells.exists_word ⟨_, .anyChar, rfl, rfl⟩
  case h_2 =>
    cases hread
    cases hadd
    exact hspells.exists_word ⟨_, .textStart, rfl, rfl⟩
  case h_3 =>
    cases hread
    cases hadd
    exact hspells.exists_word ⟨_, .textEnd, rfl, rfl⟩
  case h_4 =>
    cases hread
    cases hadd
    exact ⟨['|'], rfl, hspells.of_scope fun _ hscope => hscope.divide⟩
  case h_5 =>
    cases hread
    obtain ⟨scope, opened⟩ := draft
    cases opened with
    | nil => cases hadd
    | cons group outer =>
      cases hadd
      exact ⟨[')'], rfl, hspells.closeGroup⟩
  case h_6 =>
    cases hread
    exact hspells.exists_word_of_quantify .star hadd
  case h_7 =>
    cases hread
    exact hspells.exists_word_of_quantify .plus hadd
  case h_8 =>
    cases hread
    exact hspells.exists_word_of_quantify .question hadd
  case h_9 =>
    obtain ⟨kind, opening, hopening, rfl, hahead⟩ := Token.exists_opening_of_readGroup hread
    cases hadd
    exact ⟨opening, hahead, hspells.openGroup c.offset hopening⟩
  case h_10 => exact hspells.exists_word (Token.exists_atom_of_readSet hread hadd)
  case h_11 => exact hspells.exists_word (Token.exists_atom_of_readEscape hread hadd)
  case h_12 =>
    cases hread
    cases hadd
    refine hspells.exists_word ⟨_, .char ?_, rfl, rfl⟩
    simp_all [specialChars]

theorem reaches {stage last : Stage source} {text : List Char}
    (hspells : stage.draft.Spells resolver text) (hreaches : stage.Reaches resolver last) :
    ∃ word, stage.place.ahead = word ++ last.place.ahead ∧
      last.draft.Spells resolver (text ++ word) := by
  induction hreaches with
  | refl => exact ⟨[], rfl, by rwa [List.append_nil]⟩
  | tail _ hadvance ih =>
    obtain ⟨word, hahead, hmid⟩ := ih
    obtain ⟨more, hmore, hlast⟩ := hmid.advance hadvance
    exact ⟨word ++ more, by rw [hahead, hmore, List.append_assoc], by rwa [← List.append_assoc]⟩

end Draft.Spells

/-! ### Accepting -/

/-- A source compiles to a tree if it is the text of a scope with that tree. -/
theorem Node.exists_spells_of_ofText {source : List Char} {node : Node}
    (hnode : Node.ofText resolver source = .ok node) :
    ∃ scope : Scope, scope.Spells resolver source ∧ scope.node = node := by
  obtain ⟨⟨d, ⟨scope, opened⟩⟩, hreaches, hend, rfl, rfl⟩ := Node.ofText_eq_ok_iff.mp hnode
  obtain ⟨word, hahead, hlast⟩ := (Draft.Spells.outermost .empty).reaches hreaches
  have htext : source = word := by
    rw [show d.ahead = [] from hend, List.append_nil] at hahead
    exact hahead
  cases hlast with
  | outermost hscope => exact ⟨scope, htext ▸ hscope, rfl⟩

/-- A source compiles to a tree if the grammar derives it with that tree. -/
theorem Node.ofText_eq_ok_iff_derives {source : List Char} {node : Node} :
    Node.ofText resolver source = .ok node ↔
      ∃ phrase, Derives resolver .alternation phrase ∧ phrase.text = source ∧
        phrase.node = node := by
  constructor
  · intro hnode
    obtain ⟨scope, hscope, rfl⟩ := Node.exists_spells_of_ofText hnode
    exact hscope.exists_alternation
  · intro hphrase
    obtain ⟨phrase, hphrase, rfl, rfl⟩ := hphrase
    obtain ⟨d, hend⟩ := Cursor.exists_ahead_eq (c := Cursor.start phrase.text)
      (List.append_nil phrase.text).symm
    have hahead : (Cursor.start phrase.text).ahead = phrase.text ++ d.ahead := by
      rw [hend, List.append_nil]
      rfl
    obtain ⟨scope, hreaches, hnode⟩ := hphrase.covers (Cursor.start phrase.text) d [] hahead
    exact Node.ofText_eq_ok_iff.mpr ⟨⟨d, ⟨scope, []⟩⟩, hreaches, hend, rfl, hnode⟩

/-- A source compiles to its tree in the grammar. -/
theorem Pattern.compile_eq_ok_iff_derives {source : List Char} {pattern : Pattern} :
    compile resolver source = .ok pattern ↔ pattern.source = source ∧
      ∃ phrase, Derives resolver .alternation phrase ∧ phrase.text = source ∧
        phrase.node = pattern.root := by
  rw [compile_eq_ok_iff_ofText, Node.ofText_eq_ok_iff_derives]

theorem Pattern.compile_of_derives {source : List Char} {phrase : Phrase}
    (hphrase : Derives resolver .alternation phrase) (htext : phrase.text = source) :
    compile resolver source = .ok ⟨source, phrase.node⟩ :=
  compile_eq_ok_iff_derives.mpr ⟨rfl, phrase, hphrase, htext, rfl⟩

/-- A source compiles to the tree of a scope that has it for a text. -/
theorem Pattern.compile_eq_ok_iff_spells {source : List Char} {pattern : Pattern} :
    compile resolver source = .ok pattern ↔ pattern.source = source ∧
      ∃ scope : Scope, scope.Spells resolver source ∧ scope.node = pattern.root := by
  rw [compile_eq_ok_iff_ofText]
  apply and_congr_right
  intro _
  refine ⟨Node.exists_spells_of_ofText, ?_⟩
  intro hspells
  obtain ⟨scope, hscope, hnode⟩ := hspells
  obtain ⟨phrase, hphrase, htext, hsame⟩ := hscope.exists_alternation
  exact Node.ofText_eq_ok_iff_derives.mpr ⟨phrase, hphrase, htext, hsame.trans hnode⟩

/-- The grammar is not ambiguous: a text has one meaning. -/
theorem Derives.node_eq {left right : Phrase} (hleft : Derives resolver .alternation left)
    (hright : Derives resolver .alternation right) (htext : left.text = right.text) :
    left.node = right.node := by
  have hofText := Node.ofText_eq_ok_iff_derives.mpr ⟨left, hleft, htext, rfl⟩
  rw [Node.ofText_eq_ok_iff_derives.mpr ⟨right, hright, rfl, rfl⟩] at hofText
  exact (Except.ok.inj hofText).symm

/-- Patterns are the texts of the grammar. -/
theorem Pattern.compiles_iff_derives (resolver : Resolver) (source : List Char) :
    (∃ pattern, compile resolver source = .ok pattern) ↔
      ∃ phrase, Derives resolver .alternation phrase ∧ phrase.text = source := by
  constructor
  · intro hcompile
    obtain ⟨pattern, hpattern⟩ := hcompile
    obtain ⟨-, phrase, hphrase, htext, -⟩ := compile_eq_ok_iff_derives.mp hpattern
    exact ⟨phrase, hphrase, htext⟩
  · intro hphrase
    obtain ⟨phrase, hphrase, htext⟩ := hphrase
    exact ⟨⟨source, phrase.node⟩,
      compile_eq_ok_iff_derives.mpr ⟨rfl, phrase, hphrase, htext, rfl⟩⟩

end EmojiPatterns
