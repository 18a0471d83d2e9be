import EmojiPatterns.Proofs.Stages

/-!
# Every phrase is read

A phrase of the grammar that stands anywhere in a source is read as what it means, whatever comes
after it.  A walk through the source gets from the place before the phrase to the place behind it,
and the draft has then grown by the node of the phrase.  The walk is put together along the
derivation: one token for a single character, an escape or a class, and the walks of the parts for
everything else.  Main statement: `Derives.covers`.
-/

namespace EmojiPatterns

variable {resolver : Resolver}

namespace Token

variable {source : List Char} {begin : Nat} {c d : Cursor source}

theorem readFrom_of_not_special {x : Char} (hplain : x ∉ specialChars) :
    readFrom begin x c = .read (.char x) c := by
  simp only [specialChars, List.mem_cons, List.not_mem_nil, or_false, not_or] at hplain
  unfold readFrom
  split
  case h_12 => rfl
  all_goals simp at hplain

theorem readFrom_of_spells {word : List Char} {x : Char} (hword : Escape.Spells word x)
    (hahead : c.ahead = word ++ d.ahead) : readFrom begin '\\' c = .read (.char x) d := by
  simp only [readFrom, Escape.read_of_spells begin .topLevel hword hahead, Reading.map]

theorem readFrom_of_isName {name : List Char} {negated : Bool} (hname : Escape.IsName name)
    (hahead : c.ahead = Escape.ofName negated name ++ d.ahead) :
    readFrom begin '\\' c =
      .read (.property ⟨String.ofList name, negated, .topLevel, ⟨begin, d.offset⟩⟩) d := by
  simp only [readFrom, Escape.read_of_isName begin .topLevel negated hname hahead, Reading.map]

theorem readFrom_sign (sign : Sign) :
    readFrom begin sign.char c = .read (.quantifier sign.quantifier) c := by
  cases sign <;> rfl

/-- The opening of a group is read whole, since no group's body starts with a question mark. -/
theorem readFrom_opening {kind : GroupKind} {opening : List Char} (hopening : kind.Opening opening)
    (hahead : '(' :: c.ahead = opening ++ d.ahead) (hbody : d.ahead.head? ≠ some '?') :
    readFrom begin '(' c = .read (.openGroup kind) d := by
  change readGroup begin c = _
  rw [readGroup]
  cases hopening with
  | capture =>
    obtain rfl : c = d := Cursor.ext_ahead (by simpa using hahead)
    split
    · next e hnext =>
      rw [Cursor.next?_eq_some_iff.mp hnext] at hbody
      simp at hbody
    · rfl
  | plain | look | lookNot =>
    obtain ⟨e, hquestion, he⟩ := Cursor.exists_next?_eq_some (List.cons.inj hahead).2
    simp only [hquestion, Cursor.next?_eq_some_iff.mpr he]

theorem exists_readItems_eq {negated : Bool} {items : List Char} {ranges : List CharRange}
    {tests : List (Char → Bool)} (hitems : ClassItem.SpellsAll resolver negated items ranges tests)
    (begin : Nat) (hahead : c.ahead = items ++ d.ahead) :
    ∃ read, readItems begin negated c = .read (.set negated read) d ∧
      ∀ set, Draft.addItems resolver set read = .ok (set.extend ranges tests) := by
  obtain ⟨read, hread, hadd⟩ := ClassItem.exists_readAll_eq hitems begin hahead
  refine ⟨read, ?_, hadd⟩
  rw [readItems, hread]

/-- A class whose items do not start with a caret is not negated. -/
theorem exists_readFrom_set_eq {items : List Char} {ranges : List CharRange}
    {tests : List (Char → Bool)} (hitems : ClassItem.SpellsAll resolver false items ranges tests)
    (hcaret : items.head? ≠ some '^') (begin : Nat) (hahead : c.ahead = items ++ d.ahead) :
    ∃ read, readFrom begin '[' c = .read (.set false read) d ∧
      ∀ set, Draft.addItems resolver set read = .ok (set.extend ranges tests) := by
  have hnext : ∀ e, c.next? ≠ some ('^', e) := by
    intro e hnext
    obtain ⟨front, rfl⟩ := hitems.exists_eq_append
    rw [Cursor.next?_eq_some_iff.mp hnext] at hahead
    cases front with
    | nil => cases (List.cons.inj hahead).1
    | cons x rest =>
      obtain ⟨rfl, -⟩ := List.cons.inj hahead
      exact hcaret rfl
  change ∃ read, readSet begin c = _ ∧ _
  rw [readSet]
  split
  · next e heq => exact absurd heq (hnext e)
  · exact exists_readItems_eq hitems begin hahead

theorem exists_readFrom_setNot_eq {items : List Char} {ranges : List CharRange}
    {tests : List (Char → Bool)} (hitems : ClassItem.SpellsAll resolver true items ranges tests)
    (begin : Nat) (hahead : c.ahead = '^' :: items ++ d.ahead) :
    ∃ read, readFrom begin '[' c = .read (.set true read) d ∧
      ∀ set, Draft.addItems resolver set read = .ok (set.extend ranges tests) := by
  obtain ⟨e, hcaret, he⟩ := Cursor.exists_next?_eq_some hahead
  change ∃ read, readSet begin c = _ ∧ _
  rw [readSet, hcaret]
  exact exists_readItems_eq hitems begin he

end Token

/-! ### Scopes and phrases -/

namespace Scope

/-- The branches of a scope, with the one that is being read. -/
def nodes (scope : Scope) : List Node :=
  scope.branches.reverse ++ [scope.branch]

theorem node_eq_choice {scope : Scope} {first : Node} {rest : List Node}
    (hnodes : scope.nodes = first :: rest) : scope.node = Node.choice first rest := by
  rw [nodes] at hnodes
  rw [node]
  split
  · next hnil =>
    rw [hnil] at hnodes
    cases hnodes
    rfl
  · next hcons =>
    rw [hcons] at hnodes
    cases hnodes
    rfl

end Scope

open Stage

/-- Whether a phrase of some kind, wherever it stands in a source, is read and added to the draft as
what it means. -/
def Covers (resolver : Resolver) : Part → Phrase → Prop
  | .atom, phrase | .quantified, phrase =>
    ∀ {source : List Char} (c d : Cursor source) (draft : Draft),
      c.ahead = phrase.text ++ d.ahead →
        ∃ begin, Reaches resolver ⟨c, draft⟩ ⟨d, draft.push begin phrase.node⟩
  | .concat, phrase =>
    ∀ {source : List Char} (c d : Cursor source) (branches : List Node) (opened : List OpenGroup),
      c.ahead = phrase.text ++ d.ahead →
        ∃ items, Reaches resolver ⟨c, ⟨⟨branches, []⟩, opened⟩⟩ ⟨d, ⟨⟨branches, items⟩, opened⟩⟩ ∧
          Scope.branch ⟨branches, items⟩ = phrase.node
  | .alternation, phrase =>
    ∀ {source : List Char} (c d : Cursor source) (opened : List OpenGroup),
      c.ahead = phrase.text ++ d.ahead →
        ∃ scope, Reaches resolver ⟨c, ⟨.empty, opened⟩⟩ ⟨d, ⟨scope, opened⟩⟩ ∧
          scope.node = phrase.node

namespace Covers

/-- An atom of one token is covered if that token is read from its text and adds its node. -/
theorem of_token {phrase : Phrase} {x : Char} {word : List Char} (htext : phrase.text = x :: word)
    (htoken : ∀ {source : List Char} (begin : Nat) (c d : Cursor source),
      c.ahead = word ++ d.ahead → ∃ token, Token.readFrom begin x c = .read token d ∧
        ∀ draft : Draft, draft.add resolver ⟨token, ⟨begin, d.offset⟩⟩ =
          .ok (draft.push begin phrase.node)) :
    Covers resolver .atom phrase := by
  intro source c d draft hahead
  rw [htext] at hahead
  obtain ⟨e, hnext, he⟩ := Cursor.exists_next?_eq_some hahead
  obtain ⟨token, hread, hadd⟩ := htoken c.offset e d he
  exact ⟨c.offset, .single ⟨x, e, token, hnext, hread, hadd draft⟩⟩

/-- An atom of one character is covered if that character is a token by itself. -/
theorem of_char {x : Char} {bare : Bool} {node : Node} {token : Token}
    (hread : ∀ {source : List Char} (begin : Nat) (c : Cursor source),
      Token.readFrom begin x c = .read token c)
    (hadd : ∀ (draft : Draft) (span : Span),
      draft.add resolver ⟨token, span⟩ = .ok (draft.push span.start node)) :
    Covers resolver .atom ⟨[x], bare, node⟩ := by
  apply of_token rfl
  intro source begin c d hahead
  obtain rfl := Cursor.ext_ahead hahead
  exact ⟨token, hread begin c, fun draft => hadd draft ⟨begin, c.offset⟩⟩

/-- A group is one item, which begins where the group does. -/
theorem reaches_group {kind : GroupKind} {opening : List Char} {body : Phrase}
    (hopening : kind.Opening opening) (hbody : Derives resolver .alternation body)
    (hcovers : Covers resolver .alternation body) {source : List Char} {c d : Cursor source}
    (draft : Draft) (hahead : c.ahead = opening ++ (body.text ++ [')']) ++ d.ahead) :
    Reaches resolver ⟨c, draft⟩ ⟨d, draft.push c.offset (kind.wrap body.node)⟩ := by
  obtain ⟨word, rfl⟩ : ∃ word, opening = '(' :: word := by
    cases hopening with
    | capture | plain | look | lookNot => exact ⟨_, rfl⟩
  -- The opening, the body and the parenthesis that closes the group take up the text in turn.
  rw [List.append_assoc] at hahead
  obtain ⟨b, hb⟩ := Cursor.exists_ahead_eq hahead
  rw [List.append_assoc] at hb
  obtain ⟨e, he⟩ := Cursor.exists_ahead_eq hb
  obtain ⟨a, hparenthesis, ha⟩ := Cursor.exists_next?_eq_some hahead
  have hquestion : b.ahead.head? ≠ some '?' := by
    rw [hb]
    exact hbody.head?_ne d.ahead
  have hread : Token.readFrom c.offset '(' a = .read (.openGroup kind) b := by
    apply Token.readFrom_opening hopening _ hquestion
    rw [ha, hb, List.cons_append, List.append_assoc]
    rfl
  rw [← he] at hb
  obtain ⟨scope, hreaches, hnode⟩ :=
    hcovers b e (⟨kind, c.offset, draft.scope⟩ :: draft.opened) hb
  have hopen : Advance resolver ⟨c, draft⟩
      ⟨b, ⟨.empty, ⟨kind, c.offset, draft.scope⟩ :: draft.opened⟩⟩ :=
    ⟨'(', a, _, hparenthesis, hread, rfl⟩
  have hclose : Advance resolver
      ⟨e, ⟨scope, ⟨kind, c.offset, draft.scope⟩ :: draft.opened⟩⟩
      ⟨d, draft.push c.offset (kind.wrap scope.node)⟩ :=
    ⟨')', d, .closeGroup, Cursor.next?_eq_some_iff.mpr he, rfl, rfl⟩
  rw [hnode] at hclose
  exact (hreaches.head hopen).tail hclose

theorem group {kind : GroupKind} {opening : List Char} {body : Phrase}
    (hopening : kind.Opening opening) (hbody : Derives resolver .alternation body)
    (hcovers : Covers resolver .alternation body) :
    Covers resolver .atom
      ⟨opening ++ (body.text ++ [')']), kind.bare body.bare, kind.wrap body.node⟩ :=
  fun c _ draft hahead => ⟨c.offset, reaches_group hopening hbody hcovers draft hahead⟩

/-- Signs are put upon the item that was added last, one after another. -/
theorem reaches_signs {source : List Char} {c d : Cursor source} {draft : Draft} {begin : Nat}
    {node : Node} {signs : List Sign} (hrepeatable : signs ≠ [] → node.repeatable = true)
    (hahead : c.ahead = signs.map Sign.char ++ d.ahead) :
    Reaches resolver ⟨c, draft.push begin node⟩ ⟨d, draft.push begin (node.repeated signs)⟩ := by
  induction signs generalizing c node with
  | nil =>
    obtain rfl := Cursor.ext_ahead hahead
    exact .refl
  | cons sign rest ih =>
    obtain ⟨e, hnext, he⟩ := Cursor.exists_next?_eq_some hahead
    have hstep : Advance resolver ⟨c, draft.push begin node⟩
        ⟨e, draft.push begin (.iterate node sign.quantifier)⟩ := by
      refine ⟨sign.char, e, _, hnext, Token.readFrom_sign sign, ?_⟩
      simp [Draft.add, Draft.quantify, Draft.push, Scope.push, hrepeatable]
    exact (ih (fun _ => rfl) he).head hstep

theorem quantified {atom : Phrase} {signs : List Sign} (hatom : Derives resolver .atom atom)
    (hsigns : atom.bare = true → signs = []) (hcovers : Covers resolver .atom atom) :
    Covers resolver .quantified
      ⟨atom.text ++ signs.map Sign.char, atom.bare, atom.node.repeated signs⟩ := by
  intro source c d draft hahead
  rw [List.append_assoc] at hahead
  obtain ⟨e, he⟩ := Cursor.exists_ahead_eq hahead
  rw [← he] at hahead
  obtain ⟨begin, hreaches⟩ := hcovers c e draft hahead
  have hrepeatable : signs ≠ [] → atom.node.repeatable = true := by
    intro hne
    rw [hatom.repeatable_eq, Bool.not_eq_true']
    exact Bool.eq_false_iff.mpr fun hbare => hne (hsigns hbare)
  exact ⟨begin, hreaches.trans (reaches_signs hrepeatable he)⟩

/-- Phrases one after another are added one after another. -/
theorem exists_reaches_items {items : List Phrase}
    (hcovers : ∀ item ∈ items, Covers resolver .quantified item) {source : List Char}
    {c d : Cursor source} (draft : Draft) (hahead : c.ahead = items.flatMap (·.text) ++ d.ahead) :
    ∃ read : List Item, read.map (·.node) = items.map (·.node) ∧
      Reaches resolver ⟨c, draft⟩
        ⟨d, ⟨⟨draft.scope.branches, read.reverse ++ draft.scope.items⟩, draft.opened⟩⟩ := by
  induction items generalizing c draft with
  | nil =>
    obtain rfl := Cursor.ext_ahead hahead
    exact ⟨[], rfl, .refl⟩
  | cons item rest ih =>
    rw [List.flatMap_cons, List.append_assoc] at hahead
    obtain ⟨e, he⟩ := Cursor.exists_ahead_eq hahead
    rw [← he] at hahead
    obtain ⟨begin, hitem⟩ := hcovers item List.mem_cons_self c e draft hahead
    obtain ⟨read, hread, hrest⟩ :=
      ih (fun other hmem => hcovers other (List.mem_cons_of_mem item hmem))
        (draft.push begin item.node) he
    refine ⟨⟨begin, item.node⟩ :: read, by simp [hread], ?_⟩
    have hsame : read.reverse ++ (draft.push begin item.node).scope.items =
        (⟨begin, item.node⟩ :: read).reverse ++ draft.scope.items := by
      simp [Draft.push, Scope.push]
    rw [← hsame]
    exact hitem.trans hrest

theorem concat {items : List Phrase}
    (hcovers : ∀ item ∈ items, Covers resolver .quantified item) :
    Covers resolver .concat ⟨items.flatMap (·.text), Phrase.bareAlone items,
      Node.sequence (items.map (·.node))⟩ := by
  intro source c d branches opened hahead
  obtain ⟨read, hread, hreaches⟩ := exists_reaches_items hcovers ⟨⟨branches, []⟩, opened⟩ hahead
  refine ⟨read.reverse ++ [], hreaches, ?_⟩
  simp [Scope.branch, hread]

/-- Each bar ends a branch, and the branch behind it is read like the first. -/
theorem exists_reaches_branches {rest : List Phrase}
    (hcovers : ∀ branch ∈ rest, Covers resolver .concat branch) {source : List Char}
    {c d : Cursor source} (scope : Scope) (opened : List OpenGroup)
    (hahead : c.ahead = rest.flatMap (fun branch => '|' :: branch.text) ++ d.ahead) :
    ∃ last : Scope, Reaches resolver ⟨c, ⟨scope, opened⟩⟩ ⟨d, ⟨last, opened⟩⟩ ∧
      last.nodes = scope.nodes ++ rest.map (·.node) := by
  induction rest generalizing c scope with
  | nil =>
    obtain rfl := Cursor.ext_ahead hahead
    exact ⟨scope, .refl, (List.append_nil _).symm⟩
  | cons branch rest ih =>
    rw [List.flatMap_cons, List.cons_append, List.cons_append, List.append_assoc] at hahead
    obtain ⟨b, hbar, hb⟩ := Cursor.exists_next?_eq_some hahead
    obtain ⟨e, he⟩ := Cursor.exists_ahead_eq hb
    rw [← he] at hb
    have hdivide : Advance resolver ⟨c, ⟨scope, opened⟩⟩ ⟨b, ⟨scope.divide, opened⟩⟩ :=
      ⟨'|', b, .bar, hbar, rfl, rfl⟩
    obtain ⟨items, hitems, hbranch⟩ :=
      hcovers branch List.mem_cons_self b e (scope.branch :: scope.branches) opened hb
    obtain ⟨last, hreaches, hnodes⟩ :=
      ih (fun other hmem => hcovers other (List.mem_cons_of_mem branch hmem))
        ⟨scope.branch :: scope.branches, items⟩ he
    refine ⟨last, (hitems.trans hreaches).head hdivide, ?_⟩
    rw [hnodes, Scope.nodes, hbranch]
    simp [Scope.nodes]

theorem alternation {first : Phrase} {rest : List Phrase}
    (hfirst : Covers resolver .concat first)
    (hrest : ∀ branch ∈ rest, Covers resolver .concat branch) :
    Covers resolver .alternation ⟨first.text ++ rest.flatMap (fun branch => '|' :: branch.text),
      Phrase.bareAlone (first :: rest), Node.choice first.node (rest.map (·.node))⟩ := by
  intro source c d opened hahead
  rw [List.append_assoc] at hahead
  obtain ⟨e, he⟩ := Cursor.exists_ahead_eq hahead
  rw [← he] at hahead
  obtain ⟨items, hitems, hbranch⟩ := hfirst c e [] opened hahead
  obtain ⟨last, hreaches, hnodes⟩ := exists_reaches_branches hrest ⟨[], items⟩ opened he
  refine ⟨last, hitems.trans hreaches, ?_⟩
  apply Scope.node_eq_choice
  rw [hnodes, Scope.nodes, hbranch]
  rfl

end Covers

theorem Derives.covers {part : Part} {phrase : Phrase} (hphrase : Derives resolver part phrase) :
    Covers resolver part phrase := by
  induction hphrase with
  | anyChar | textStart | textEnd => exact Covers.of_char (fun _ _ => rfl) fun _ _ => rfl
  | char hplain =>
    exact Covers.of_char (fun _ _ => Token.readFrom_of_not_special hplain) fun _ _ => rfl
  | escape hword =>
    apply Covers.of_token rfl
    intro source begin c d hahead
    exact ⟨_, Token.readFrom_of_spells hword hahead, fun _ => rfl⟩
  | strings hname hknown =>
    apply Covers.of_token rfl
    intro source begin c d hahead
    refine ⟨_, Token.readFrom_of_isName hname hahead, ?_⟩
    intro draft
    have hnode := Draft.resolve_eq_ok_iff_names.mpr
      (.inl ⟨_, _, (Resolver.knows_iff ⟨begin, d.offset⟩).mp hknown, rfl⟩)
    simp only [Draft.add, hnode, Except.map]
  | chars hname hknown =>
    apply Covers.of_token rfl
    intro source begin c d hahead
    refine ⟨_, Token.readFrom_of_isName hname hahead, ?_⟩
    intro draft
    have hnode := Draft.resolve_eq_ok_iff_names.mpr
      (.inr ⟨_, _, (Resolver.knows_iff ⟨begin, d.offset⟩).mp hknown, rfl⟩)
    simp only [Draft.add, hnode, Except.map]
  | set hitems hcaret =>
    apply Covers.of_token rfl
    intro source begin c d hahead
    obtain ⟨read, hread, hadd⟩ := Token.exists_readFrom_set_eq hitems hcaret begin hahead
    refine ⟨_, hread, ?_⟩
    intro draft
    simp only [Draft.add, hadd, Except.map]
    rfl
  | setNot hitems =>
    apply Covers.of_token rfl
    intro source begin c d hahead
    obtain ⟨read, hread, hadd⟩ := Token.exists_readFrom_setNot_eq hitems begin hahead
    refine ⟨_, hread, ?_⟩
    intro draft
    simp only [Draft.add, hadd, Except.map]
    rfl
  | group hopening hbody ih => exact Covers.group hopening hbody ih
  | quantified hatom hsigns ih => exact Covers.quantified hatom hsigns ih
  | concat hitems ih => exact Covers.concat ih
  | alternation hfirst hrest ihfirst ihrest => exact Covers.alternation ihfirst ihrest

end EmojiPatterns
