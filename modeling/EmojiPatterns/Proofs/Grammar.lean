import EmojiPatterns.Pattern.Draft

/-!
# The grammar of patterns

Which texts are patterns and what they mean, said without reading them from left to right: an
alternation is made of concatenations, these of atoms with signs behind them, and an atom may hold
an alternation again.  What a phrase means comes with its text.  Main statements: what only looks at
its place is just what the grammar says it is (`Derives.repeatable_eq`), and no phrase starts with
a question mark (`Derives.head?_ne`).
-/

namespace EmojiPatterns

/-! ### Escapes -/

namespace Escape

/-- What stands behind a backslash for a single character. -/
inductive Spells : List Char → Char → Prop where
  | lineFeed : Spells ['n'] '\n'
  | carriageReturn : Spells ['r'] '\r'
  | tab : Spells ['t'] '\t'
  | punctuation {c : Char} (hpunctuation : Unicode.isAsciiPunctuation c = true) : Spells [c] c
  | codePoint {digits : List Char} {value : Nat} {c : Char} (hdigits : '\x7d' ∉ digits)
      (hvalue : Numeral.readCodePoint? digits = some value)
      (hscalar : Unicode.scalar? value = some c) :
      Spells ('u' :: '\x7b' :: (digits ++ ['\x7d'])) c

/-- A name that can be told from the brace behind it. -/
def IsName (name : List Char) : Prop :=
  name ≠ [] ∧ '\x7d' ∉ name

/-- What stands behind a backslash for a named property. -/
def ofName (negated : Bool) (name : List Char) : List Char :=
  (if negated then 'P' else 'p') :: '\x7b' :: (name ++ ['\x7d'])

end Escape

/-- A property of strings may stand outside of classes if it is not negated. -/
theorem PropertyReference.validate_eq_ok_iff {reference : PropertyReference} :
    reference.validate = .ok () ↔ reference.negated = false ∧ reference.enclosure = .topLevel := by
  obtain ⟨name, negated, enclosure, span⟩ := reference
  cases negated with
  | true => simp [validate]
  | false =>
    cases enclosure with
    | topLevel => simp [validate]
    | characterClass negated => cases negated <;> simp [validate]

/-- What a name turns out to be, whatever part of a source it stands in. -/
def Resolver.Knows (resolver : Resolver) (name : List Char) (negated : Bool)
    (enclosure : Enclosure) (resolved : Resolved) : Prop :=
  ∃ span, resolver.resolve ⟨String.ofList name, negated, enclosure, span⟩ = .ok resolved

/-- Where a reference stands in the source matters for complaints only. -/
theorem Resolver.knows_iff {resolver : Resolver} {name : List Char} {negated : Bool}
    {enclosure : Enclosure} {resolved : Resolved} (span : Span) :
    resolver.Knows name negated enclosure resolved ↔
      resolver.resolve ⟨String.ofList name, negated, enclosure, span⟩ = .ok resolved := by
  refine ⟨?_, fun hresolve => ⟨span, hresolve⟩⟩
  intro hknown
  obtain ⟨other, hresolve⟩ := hknown
  simp only [resolve] at hresolve ⊢
  cases hlookup : resolver.table.lookup? (String.ofList name) with
  | none =>
    rw [hlookup] at hresolve
    exact hresolve
  | some set =>
    simp only [hlookup] at hresolve ⊢
    split at hresolve
    · simp at hresolve
    · next hvalid =>
      obtain ⟨hnegated, henclosure⟩ := PropertyReference.validate_eq_ok_iff.mp hvalid
      have hmoved :
          PropertyReference.validate ⟨String.ofList name, negated, enclosure, span⟩ = .ok () :=
        PropertyReference.validate_eq_ok_iff.mpr ⟨hnegated, henclosure⟩
      rw [hmoved]
      exact hresolve

/-! ### Classes -/

namespace ClassItem

/-- How a single character is written in a class. -/
inductive SpellsChar : List Char → Char → Prop where
  | raw {c : Char} (hbracket : c ≠ ']') (hbackslash : c ≠ '\\') : SpellsChar [c] c
  | escaped {word : List Char} {c : Char} (hword : Escape.Spells word c) :
      SpellsChar ('\\' :: word) c

/-- The items of a class and the bracket that closes it, with the ranges that they name and the
tests that their properties make.  A hyphen behind a character makes a range, unless the bracket
comes right after it, and no range starts or ends at a property. -/
inductive SpellsAll (resolver : Resolver) (negated : Bool) :
    List Char → List CharRange → List (Char → Bool) → Prop where
  | close : SpellsAll resolver negated [']'] [] []
  | char {word rest : List Char} {c : Char} {ranges : List CharRange} {tests : List (Char → Bool)}
      (hchar : SpellsChar word c) (hhyphen : ∀ x after, rest = '-' :: x :: after → x = ']')
      (hrest : SpellsAll resolver negated rest ranges tests) :
      SpellsAll resolver negated (word ++ rest) (⟨c, c⟩ :: ranges) tests
  | range {low high rest : List Char} {lo hi : Char} {ranges : List CharRange}
      {tests : List (Char → Bool)} (hlo : SpellsChar low lo) (hhi : SpellsChar high hi)
      (hle : lo ≤ hi) (hrest : SpellsAll resolver negated rest ranges tests) :
      SpellsAll resolver negated (low ++ '-' :: (high ++ rest)) (⟨lo, hi⟩ :: ranges) tests
  | property {name rest : List Char} {capital : Bool} {known : String} {holds : Char → Bool}
      {ranges : List CharRange} {tests : List (Char → Bool)} (hname : Escape.IsName name)
      (hknown : resolver.Knows name capital (.characterClass negated) (.chars known holds))
      (hrest : SpellsAll resolver negated rest ranges tests) :
      SpellsAll resolver negated ('\\' :: (Escape.ofName capital name ++ rest)) ranges
        ((fun c => holds c != capital) :: tests)

end ClassItem

/-! ### Signs of repetition and of groups -/

/-- A sign that asks for repetition. -/
inductive Sign where
  | star
  | plus
  | question
deriving DecidableEq

namespace Sign

def char : Sign → Char
  | star => '*'
  | plus => '+'
  | question => '?'

def quantifier : Sign → Quantifier
  | star => .anyNumber
  | plus => .oneOrMore
  | question => .atMostOne

end Sign

/-- A node with quantifiers put upon it one after another. -/
def Node.repeated (node : Node) (signs : List Sign) : Node :=
  signs.foldl (fun node sign => .iterate node sign.quantifier) node

namespace GroupKind

/-- How a group begins. -/
inductive Opening : GroupKind → List Char → Prop where
  | capture : Opening .plain ['(']
  | plain : Opening .plain ['(', '?', ':']
  | look : Opening (.look false) ['(', '?', '=']
  | lookNot : Opening (.look true) ['(', '?', '!']

/-- Whether a group only looks at its place, if its body does or does not. -/
def bare (kind : GroupKind) (body : Bool) : Bool :=
  match kind with
  | .plain => body
  | .look _ => true

end GroupKind

/-! ### Phrases -/

/-- A part of a pattern. -/
structure Phrase where
  text : List Char
  /-- Whether it is `^`, `$`, a lookahead, or plain groups around exactly one of these. -/
  bare : Bool
  /-- What it means. -/
  node : Node

/-- A run of phrases is bare if there is just one and that is bare. -/
def Phrase.bareAlone : List Phrase → Bool
  | [phrase] => phrase.bare
  | _ => false

/-- The characters that do not stand for themselves. -/
def specialChars : List Char :=
  ['.', '^', '$', '(', ')', '[', '\\', '*', '+', '?', '|']

/-- The kinds of phrases. -/
inductive Part where
  | alternation
  | concat
  | quantified
  | atom

/-- The phrases of the grammar. -/
inductive Derives (resolver : Resolver) : Part → Phrase → Prop where
  | anyChar : Derives resolver .atom ⟨['.'], false, .anyChar⟩
  | textStart : Derives resolver .atom ⟨['^'], true, .textStart⟩
  | textEnd : Derives resolver .atom ⟨['$'], true, .textEnd⟩
  | char {c : Char} (hplain : c ∉ specialChars) : Derives resolver .atom ⟨[c], false, .char c⟩
  | escape {word : List Char} {c : Char} (hword : Escape.Spells word c) :
      Derives resolver .atom ⟨'\\' :: word, false, .char c⟩
  | strings {name : List Char} {capital : Bool} {known : String} {fragment : Fragment}
      (hname : Escape.IsName name)
      (hknown : resolver.Knows name capital .topLevel (.strings known fragment)) :
      Derives resolver .atom ⟨'\\' :: Escape.ofName capital name, false, .strings fragment⟩
  | chars {name : List Char} {capital : Bool} {known : String} {holds : Char → Bool}
      (hname : Escape.IsName name)
      (hknown : resolver.Knows name capital .topLevel (.chars known holds)) :
      Derives resolver .atom ⟨'\\' :: Escape.ofName capital name, false,
        .set ⟨false, .empty, [fun c => holds c != capital]⟩⟩
  | set {items : List Char} {ranges : List CharRange} {tests : List (Char → Bool)}
      (hitems : ClassItem.SpellsAll resolver false items ranges tests)
      (hcaret : items.head? ≠ some '^') :
      Derives resolver .atom
        ⟨'[' :: items, false, .set ⟨false, ranges.foldl CharClass.insert .empty, tests⟩⟩
  | setNot {items : List Char} {ranges : List CharRange} {tests : List (Char → Bool)}
      (hitems : ClassItem.SpellsAll resolver true items ranges tests) :
      Derives resolver .atom
        ⟨'[' :: '^' :: items, false, .set ⟨true, ranges.foldl CharClass.insert .empty, tests⟩⟩
  | group {kind : GroupKind} {opening : List Char} {body : Phrase}
      (hopening : kind.Opening opening) (hbody : Derives resolver .alternation body) :
      Derives resolver .atom
        ⟨opening ++ (body.text ++ [')']), kind.bare body.bare, kind.wrap body.node⟩
  /-- No sign may follow an atom that is bare. -/
  | quantified {atom : Phrase} {signs : List Sign} (hatom : Derives resolver .atom atom)
      (hsigns : atom.bare = true → signs = []) :
      Derives resolver .quantified
        ⟨atom.text ++ signs.map Sign.char, atom.bare, atom.node.repeated signs⟩
  | concat {items : List Phrase} (hitems : ∀ item ∈ items, Derives resolver .quantified item) :
      Derives resolver .concat ⟨items.flatMap (·.text), Phrase.bareAlone items,
        Node.sequence (items.map (·.node))⟩
  | alternation {first : Phrase} {rest : List Phrase} (hfirst : Derives resolver .concat first)
      (hrest : ∀ branch ∈ rest, Derives resolver .concat branch) :
      Derives resolver .alternation ⟨first.text ++ rest.flatMap (fun branch => '|' :: branch.text),
        Phrase.bareAlone (first :: rest), Node.choice first.node (rest.map (·.node))⟩

namespace Derives

variable {resolver : Resolver} {part : Part} {phrase : Phrase}

/-! ### Single parts -/

theorem quantified_of_atom (hatom : Derives resolver .atom phrase) :
    Derives resolver .quantified phrase := by
  have hquantified := @Derives.quantified resolver phrase [] hatom fun _ => rfl
  rwa [List.map_nil, List.append_nil] at hquantified

theorem concat_of_quantified (hitem : Derives resolver .quantified phrase) :
    Derives resolver .concat phrase := by
  have hconcat := @Derives.concat resolver [phrase] (by simpa using hitem)
  rwa [List.flatMap_singleton] at hconcat

theorem alternation_of_concat (hbranch : Derives resolver .concat phrase) :
    Derives resolver .alternation phrase := by
  have halternation := @Derives.alternation resolver phrase [] hbranch (by simp)
  rwa [List.flatMap_nil, List.append_nil] at halternation

/-! ### Phrases that may be repeated -/

theorem repeatable_repeated {node : Node} (hnode : node.repeatable = true) (signs : List Sign) :
    (node.repeated signs).repeatable = true := by
  induction signs generalizing node with
  | nil => exact hnode
  | cons sign rest ih => exact ih rfl

/-- What may be repeated is what is not bare. -/
theorem repeatable_eq (hphrase : Derives resolver part phrase) :
    phrase.node.repeatable = !phrase.bare := by
  induction hphrase with
  | anyChar | textStart | textEnd | char | escape | strings | chars | set | setNot => rfl
  | @group kind opening body hopening hbody ih =>
    cases kind with
    | plain => exact ih
    | look negated => rfl
  | @quantified atom signs hatom hsigns ih =>
    cases hbare : atom.bare with
    | true =>
      rw [hsigns hbare, ← hbare]
      exact ih
    | false => exact repeatable_repeated (by rw [ih, hbare]; rfl) signs
  | @concat items hitems ih =>
    match items with
    | [] => rfl
    | [item] => exact ih item List.mem_cons_self
    | first :: second :: rest => rfl
  | @alternation first rest hfirst hrest ihfirst ihrest =>
    cases rest with
    | nil => exact ihfirst
    | cons second rest => rfl

/-! ### First characters -/

theorem exists_atom_text_eq_cons (hatom : Derives resolver .atom phrase) :
    ∃ x rest, phrase.text = x :: rest ∧ x ≠ '?' := by
  cases hatom with
  | anyChar | textStart | textEnd | escape | strings | chars | set | setNot =>
    exact ⟨_, _, rfl, by decide⟩
  | char hplain =>
    refine ⟨_, _, rfl, ?_⟩
    rintro rfl
    exact hplain (by decide)
  | group hopening hbody =>
    cases hopening with
    | capture | plain | look | lookNot => exact ⟨_, _, rfl, by decide⟩

theorem exists_quantified_text_eq_cons (hitem : Derives resolver .quantified phrase) :
    ∃ x rest, phrase.text = x :: rest ∧ x ≠ '?' := by
  cases hitem with
  | quantified hatom hsigns =>
    obtain ⟨x, rest, htext, hne⟩ := hatom.exists_atom_text_eq_cons
    exact ⟨x, _, by rw [htext]; rfl, hne⟩

/-- No alternation starts with a question mark, so a parenthesis before it is a group's opening. -/
theorem head?_ne (halternation : Derives resolver .alternation phrase) (rest : List Char) :
    (phrase.text ++ ')' :: rest).head? ≠ some '?' := by
  cases halternation with
  | @alternation first branches hfirst hbranches =>
    cases hfirst with
    | @concat items hitems =>
      cases items with
      | nil =>
        cases branches with
        | nil => simp
        | cons second branches => simp
      | cons item items =>
        obtain ⟨x, more, htext, hne⟩ :=
          (hitems item List.mem_cons_self).exists_quantified_text_eq_cons
        simp [htext, hne]

end Derives

end EmojiPatterns
