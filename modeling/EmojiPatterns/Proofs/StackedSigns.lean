import EmojiPatterns.Proofs.Composition
import EmojiPatterns.Proofs.Iteration

/-!
# Signs upon signs

A sign of repetition may follow another one.  Then the inner repetition is repeated, and that can
be said with a single sign: a stack of `+` says `+`, a stack of `?` says `?`, and any other stack
says `*`.  A sign behind a group belongs to the last item of the pattern, even where the text in
the group closes that group and opens another, so the signs can be changed with nothing around
them changing.  Main statements: `Scope.Spells.exists_last_atom`, `Node.repeated_resembles`,
`Pattern.stacked_signs_collapse`.
-/

namespace EmojiPatterns

variable {resolver : Resolver}

/-! ### One sign for a stack of signs -/

namespace Sign

/-- What a sign upon another one amounts to. -/
def upon (outer inner : Sign) : Sign :=
  if outer = inner then outer else .star

/-- What a stack of signs amounts to. -/
def collapse (stack : List Sign) : Sign :=
  if stack.all (· = .plus) then .plus
  else if stack.all (· = .question) then .question
  else .star

theorem collapse_cons_cons (inner outer : Sign) (rest : List Sign) :
    collapse (inner :: outer :: rest) = collapse (outer.upon inner :: rest) := by
  cases inner <;> cases outer <;> simp [collapse, upon]

end Sign

namespace Node

theorem upon_resembles (body : Node) (inner outer : Sign) :
    (iterate (iterate body inner.quantifier) outer.quantifier).Resembles
      (iterate body (outer.upon inner).quantifier) := by
  intro text
  cases outer with
  | star =>
    cases inner with
    | star => exact body.steps.anyNumber_of_anyNumber
    | plus => exact body.steps.anyNumber_of_oneOrMore
    | question => exact body.steps.anyNumber_of_atMostOne
  | plus =>
    cases inner with
    | star => exact body.steps.oneOrMore_of_anyNumber
    | plus => exact body.steps.oneOrMore_of_oneOrMore
    | question => exact body.steps.oneOrMore_of_atMostOne
  | question =>
    cases inner with
    | star => exact body.steps.atMostOne_of_anyNumber
    | plus => exact body.steps.atMostOne_of_oneOrMore
    | question => exact body.steps.atMostOne_of_atMostOne

theorem Resembles.repeated {left right : Node} (hnodes : left.Resembles right)
    (signs : List Sign) : (left.repeated signs).Resembles (right.repeated signs) := by
  induction signs generalizing left right with
  | nil => exact hnodes
  | cons sign rest ih => exact ih (hnodes.iterate sign.quantifier)

/-- A stack of signs repeats like the one sign that it amounts to. -/
theorem repeated_resembles (body : Node) {stack : List Sign} (hstack : stack ≠ []) :
    (body.repeated stack).Resembles (body.repeated [Sign.collapse stack]) := by
  match stack with
  | [inner] => cases inner <;> exact .refl _
  | inner :: outer :: rest =>
    rw [Sign.collapse_cons_cons]
    exact ((body.upon_resembles inner outer).repeated rest).trans
      (body.repeated_resembles (List.cons_ne_nil (outer.upon inner) rest))
termination_by stack.length

end Node

/-! ### The last item -/

namespace Node.Exchange

variable {old new left right : Node}

theorem sequence_last (nodes : List Node) (hnode : Exchange old new left right) :
    Exchange old new (sequence (nodes ++ [left])) (sequence (nodes ++ [right])) := by
  induction nodes with
  | nil => exact hnode
  | cons node rest ih =>
    cases rest with
    | nil => exact .seq (.same node) hnode
    | cons second rest => exact .seq (.same node) ih

theorem choice_last (first : Node) (rest : List Node) (hnode : Exchange old new left right) :
    Exchange old new (choice first (rest ++ [left])) (choice first (rest ++ [right])) := by
  induction rest generalizing first with
  | nil => exact .alt (.same first) hnode
  | cons second rest ih => exact .alt (.same first) (ih second)

/-- The last item of a scope can be exchanged. -/
theorem push (scope : Scope) (begin : Nat) (hnode : Exchange old new left right) :
    Exchange old new (scope.push ⟨begin, left⟩).node (scope.push ⟨begin, right⟩).node := by
  have hbranch : Exchange old new (scope.push ⟨begin, left⟩).branch
      (scope.push ⟨begin, right⟩).branch := by
    simpa [Scope.branch, Scope.push] using hnode.sequence_last (scope.items.reverse.map (·.node))
  cases hbranches : scope.branches.reverse with
  | nil => simpa [Scope.node, Scope.push, hbranches] using hbranch
  | cons first rest =>
    simpa [Scope.node, Scope.push, hbranches] using hbranch.choice_last first rest

end Node.Exchange

/-- The only atom that ends with a star is an escape. -/
theorem Derives.text_eq_of_getLast? {atom : Phrase} (hatom : Derives resolver .atom atom)
    (hlast : atom.text.getLast? = some '*') : atom.text = ['\\', '*'] := by
  cases hatom with
  | anyChar | textStart | textEnd => simp at hlast
  | char hplain =>
    obtain rfl : _ = '*' := by simpa using hlast
    exact absurd (by decide) hplain
  | escape hword =>
    cases hword with
    | lineFeed | carriageReturn | tab => simp at hlast
    | punctuation hpunctuation =>
      obtain rfl : _ = '*' := by simpa using hlast
      rfl
    | codePoint hdigits hvalue hscalar => simp [List.getLast?_cons] at hlast
  | strings hname hknown | chars hname hknown =>
    simp [Escape.ofName, List.getLast?_cons] at hlast
  | set hitems hcaret =>
    obtain ⟨front, rfl⟩ := hitems.exists_eq_append
    simp [List.getLast?_cons] at hlast
  | setNot hitems =>
    obtain ⟨front, rfl⟩ := hitems.exists_eq_append
    simp [List.getLast?_cons] at hlast
  | group hopening hbody => simp at hlast

/-- A star behind a parenthesis is a sign upon the last item, which then has no other sign. -/
theorem Scope.Spells.exists_last_atom {scope : Scope} {word : List Char}
    (hscope : scope.Spells resolver (word ++ [')', '*'])) :
    ∃ before front atom, Spells resolver before front ∧ Derives resolver .atom atom ∧
      atom.bare = false ∧ front ++ atom.text = word ++ [')'] := by
  generalize htext : word ++ [')', '*'] = text at hscope
  cases hscope with
  | empty => simp at htext
  | @divide scope front hbefore =>
    have hlast := congrArg List.getLast? htext
    simp at hlast
  | @push scope front item begin hbefore hitem =>
    cases hitem with
    | @quantified atom signs hatom hsigns =>
      rcases List.eq_nil_or_concat signs with rfl | ⟨fewer, sign, rfl⟩
      · -- Without signs the item is an atom that ends with a star, but no parenthesis comes before
        -- the star of an escape.
        obtain ⟨x, rest, hatomtext, -⟩ := hatom.exists_atom_text_eq_cons
        have hlast := congrArg List.getLast? htext
        simp only [List.map_nil, List.append_nil, hatomtext, List.getLast?_append,
          List.getLast?_cons, Option.some_or] at hlast
        have hstar : atom.text = ['\\', '*'] := by
          apply hatom.text_eq_of_getLast?
          rw [hatomtext, List.getLast?_cons, ← hlast]
          rfl
        rw [hstar] at htext
        simpa using List.append_inj' htext rfl
      · simp only [List.concat_eq_append, List.map_append, List.map_cons, List.map_nil,
          ← List.append_assoc] at htext
        rw [List.append_cons] at htext
        obtain ⟨hfront, -⟩ := List.append_inj' htext rfl
        have hbare : atom.bare = false := by
          apply Bool.eq_false_iff.mpr
          intro hbare
          simpa using hsigns hbare
        rcases List.eq_nil_or_concat fewer with rfl | ⟨fewest, last, rfl⟩
        · exact ⟨_, front, atom, hbefore, hatom, hbare, by simpa using hfront.symm⟩
        · have hlast := congrArg List.getLast? hfront
          simp only [List.concat_eq_append, List.map_append, List.map_cons, List.map_nil,
            ← List.append_assoc, List.getLast?_concat, Option.some.injEq] at hlast
          cases last <;> simp [Sign.char] at hlast

namespace Pattern

/-- Signs may stand behind the group of a phrase that is not bare. -/
theorem compile_inGroup {phrase : Phrase} (hphrase : Derives resolver .alternation phrase)
    {signs : List Sign} (hsigns : phrase.bare = true → signs = []) :
    compile resolver (inGroup phrase.text ++ signs.map Sign.char) =
      .ok ⟨inGroup phrase.text ++ signs.map Sign.char, phrase.node.repeated signs⟩ :=
  compile_group_signs .plain hphrase hsigns

/-- If a star may stand behind a group, any signs may stand there instead, and they repeat the same
part of the tree. -/
theorem exists_signs {p : List Char} {star : Pattern}
    (hstar : compile resolver (inGroup p ++ ['*']) = .ok star) :
    ∃ (before : Scope) (body : Node), body.repeatable = true ∧ ∀ signs : List Sign,
      compile resolver (inGroup p ++ signs.map Sign.char) =
        .ok ⟨inGroup p ++ signs.map Sign.char, (before.push ⟨0, body.repeated signs⟩).node⟩ := by
  obtain ⟨-, scope, hscope, -⟩ := compile_eq_ok_iff_spells.mp hstar
  have htext : inGroup p ++ ['*'] = (['(', '?', ':'] ++ p) ++ [')', '*'] := by simp [inGroup]
  rw [htext] at hscope
  obtain ⟨before, front, atom, hbefore, hatom, hbare, hgroup⟩ := hscope.exists_last_atom
  refine ⟨before, atom.node, by rw [hatom.repeatable_eq, hbare]; rfl, ?_⟩
  intro signs
  have hitem := @Derives.quantified resolver atom signs hatom (by simp [hbare])
  have hspells := hbefore.push 0 hitem
  rw [← List.append_assoc, hgroup, List.append_assoc ['(', '?', ':']] at hspells
  exact compile_eq_ok_iff_spells.mpr ⟨rfl, _, hspells, rfl⟩

/-- A stack of signs behind a group cannot be told from the one sign that it amounts to. -/
theorem stacked_signs_collapse {p : List Char} {star : Pattern}
    (hstar : compile resolver (inGroup p ++ ['*']) = .ok star) (stack : List Sign)
    (hstack : 2 ≤ stack.length) :
    ∃ stacked single, compile resolver (inGroup p ++ stack.map Sign.char) = .ok stacked ∧
      compile resolver (inGroup p ++ [(Sign.collapse stack).char]) = .ok single ∧
      stacked.Alike single := by
  obtain ⟨before, body, -, hsigns⟩ := exists_signs hstar
  refine ⟨_, _, hsigns stack, hsigns [Sign.collapse stack], alike_of_resembles ?_⟩
  have hne : stack ≠ [] := by
    rintro rfl
    simp at hstack
  exact (Node.Exchange.push before 0 .here).resembles (body.repeated_resembles hne)

theorem stacked_signs_collapse_plus_question :
    ∃ stacked single : Pattern,
      compile .nameless (inGroup ['a'] ++ ['+', '?']) = .ok stacked ∧
      compile .nameless (inGroup ['a'] ++ ['*']) = .ok single ∧
      stacked.Alike single := by
  have hchar : Derives .nameless .alternation ⟨['a'], false, .char 'a'⟩ :=
    (Derives.char (by decide)).alternation_of_atom
  exact stacked_signs_collapse (@compile_inGroup _ _ hchar [.star] (by simp))
    [.plus, .question] (by decide)

end Pattern

end EmojiPatterns
