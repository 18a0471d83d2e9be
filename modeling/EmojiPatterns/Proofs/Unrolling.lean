import EmojiPatterns.Proofs.StackedSigns

/-!
# Unrolled repetitions

`+` can be written as the body once and then `*`, and `*` as `+` or nothing.  This is about texts:
the body is written out in a group of its own, so it has to be a pattern by itself.  The trees of
the two sides resemble each other, and so either can be put in the place of the other anywhere.
Main statements: a group that takes a star has a body that does more than look at its place
(`Pattern.bare_eq_false_of_star`), and the unrolling equations (`Pattern.iteration_unrolls`).
-/

namespace EmojiPatterns

variable {resolver : Resolver}

namespace Node

/-- `+` is the body once and then `*`. -/
theorem iterate_oneOrMore_resembles (body : Node) :
    (iterate body .oneOrMore).Resembles (seq body (iterate body .anyNumber)) :=
  fun _ => body.steps.oneOrMore_resembles

/-- `*` is `+` or nothing. -/
theorem iterate_anyNumber_resembles (body : Node) :
    (iterate body .anyNumber).Resembles (alt (iterate body .oneOrMore) empty) :=
  fun _ => body.steps.anyNumber_resembles

end Node

/-- What ends with an item that may be repeated may be repeated itself. -/
theorem Scope.repeatable_push (scope : Scope) (begin : Nat) {node : Node}
    (hnode : node.repeatable = true) : (scope.push ⟨begin, node⟩).node.repeatable = true := by
  have hsequence : ∀ nodes : List Node,
      (Node.sequence (nodes ++ [node])).repeatable = true := by
    intro nodes
    match nodes with
    | [] => exact hnode
    | [first] => rfl
    | first :: second :: rest => rfl
  cases hbranches : scope.branches.reverse with
  | nil => simpa [Scope.node, Scope.push, Scope.branch, hbranches] using
      hsequence (scope.items.reverse.map (·.node))
  | cons first rest => cases rest <;> simp [Scope.node, Scope.push, hbranches] <;> rfl

namespace Pattern

/-- Patterns that cannot be told apart, neither by themselves nor as parts of larger ones. -/
def Interchangeable (left right : Pattern) : Prop :=
  left.Alike right ∧ ∀ one other : Pattern,
    Node.Exchange left.root right.root one.root other.root ∨
      Node.Exchange right.root left.root one.root other.root → one.Alike other

theorem interchangeable_of_resembles {left right : Pattern}
    (hroot : left.root.Resembles right.root) : left.Interchangeable right := by
  refine ⟨alike_of_resembles hroot, ?_⟩
  rintro one other (hforth | hback)
  · exact alike_of_resembles (hforth.resembles hroot)
  · exact alike_of_resembles (hback.resembles hroot.symm)

/-- A pattern whose group takes a star does more than look at its place. -/
theorem bare_eq_false_of_star {phrase : Phrase} {star : Pattern}
    (hphrase : Derives resolver .alternation phrase)
    (hstar : compile resolver (inGroup phrase.text ++ ['*']) = .ok star) :
    phrase.bare = false := by
  obtain ⟨before, body, hbody, hsigns⟩ := exists_signs hstar
  have hnone := hsigns []
  rw [compile_inGroup hphrase fun _ => rfl] at hnone
  have hnode : phrase.node = (before.push ⟨0, body⟩).node :=
    congrArg Pattern.root (Except.ok.inj hnone)
  have hrepeatable := hphrase.repeatable_eq
  rw [hnode, Scope.repeatable_push before 0 hbody] at hrepeatable
  simpa using hrepeatable.symm

/-- One group after another, with a star behind the second. -/
theorem compile_unrolled {phrase : Phrase} (hphrase : Derives resolver .alternation phrase)
    (hbare : phrase.bare = false) :
    compile resolver (inGroup phrase.text ++ (inGroup phrase.text ++ ['*'])) =
      .ok ⟨inGroup phrase.text ++ (inGroup phrase.text ++ ['*']),
        .seq phrase.node (.iterate phrase.node .anyNumber)⟩ := by
  have hstar := @Derives.quantified _ _ [.star] hphrase.inGroup (by simp [hbare])
  have hrow := @Derives.concat _ [_, _] (by simpa using ⟨hphrase.inGroup.quantified_of_atom, hstar⟩)
  exact compile_of_derives hrow.alternation_of_concat (by simp [Sign.char])

/-- A repeated group or nothing, in a group again. -/
theorem compile_optional {phrase : Phrase} (hphrase : Derives resolver .alternation phrase)
    (hbare : phrase.bare = false) :
    compile resolver (inGroup (inGroup phrase.text ++ ['+', '|'])) =
      .ok ⟨inGroup (inGroup phrase.text ++ ['+', '|']),
        .alt (.iterate phrase.node .oneOrMore) .empty⟩ := by
  have hplus := @Derives.quantified _ _ [.plus] hphrase.inGroup (by simp [hbare])
  have hnothing : Derives resolver .concat ⟨[], false, .empty⟩ := @Derives.concat _ [] (by simp)
  have hbranches := @Derives.alternation _ _ [_] hplus.concat_of_quantified
    (by simpa using hnothing)
  exact compile_of_derives hbranches.inGroup.alternation_of_atom (by simp [Sign.char])

/-- The unrolled forms of `+` and `*` can take their places, wherever they stand.  That the pattern
in the group compiles by itself is needed: else the group may end within its text, and what is
repeated is not what is written out. -/
theorem iteration_unrolls {p : List Char} {inner star : Pattern}
    (hinner : compile resolver p = .ok inner)
    (hstar : compile resolver (inGroup p ++ ['*']) = .ok star) :
    ∃ plus unrolled optional, compile resolver (inGroup p ++ ['+']) = .ok plus ∧
      compile resolver (inGroup p ++ (inGroup p ++ ['*'])) = .ok unrolled ∧
      compile resolver (inGroup (inGroup p ++ ['+', '|'])) = .ok optional ∧
      plus.Interchangeable unrolled ∧ star.Interchangeable optional := by
  obtain ⟨-, phrase, hphrase, rfl, -⟩ := compile_eq_ok_iff_derives.mp hinner
  have hbare := bare_eq_false_of_star hphrase hstar
  have hplus := @compile_inGroup _ _ hphrase [.plus] (by simp [hbare])
  have hstarred := @compile_inGroup _ _ hphrase [.star] (by simp [hbare])
  obtain rfl := Except.ok.inj (hstar.symm.trans hstarred)
  exact ⟨_, _, _, hplus, compile_unrolled hphrase hbare, compile_optional hphrase hbare,
    interchangeable_of_resembles (Node.iterate_oneOrMore_resembles phrase.node),
    interchangeable_of_resembles (Node.iterate_anyNumber_resembles phrase.node)⟩

theorem iteration_unrolls_char :
    ∃ plus unrolled optional : Pattern,
      compile .nameless (inGroup ['a'] ++ ['+']) = .ok plus ∧
      compile .nameless (inGroup ['a'] ++ (inGroup ['a'] ++ ['*'])) = .ok unrolled ∧
      compile .nameless (inGroup (inGroup ['a'] ++ ['+', '|'])) = .ok optional ∧
      plus.Interchangeable unrolled ∧
      Interchangeable ⟨inGroup ['a'] ++ ['*'], .iterate (.char 'a') .anyNumber⟩ optional := by
  have hchar : Derives .nameless .alternation ⟨['a'], false, .char 'a'⟩ :=
    (Derives.char (by decide)).alternation_of_atom
  exact iteration_unrolls (compile_of_derives hchar rfl)
    (@compile_inGroup _ _ hchar [.star] (by simp))

/-- If the text in the group closes it and opens another, only the other group is repeated, while
both are written out. -/
theorem split_group_does_not_unroll :
    ∃ star plus unrolled : Pattern,
      compile .nameless (inGroup ['a', ')', '(', '?', ':', 'b'] ++ ['*']) = .ok star ∧
      compile .nameless (inGroup ['a', ')', '(', '?', ':', 'b'] ++ ['+']) = .ok plus ∧
      compile .nameless (inGroup ['a', ')', '(', '?', ':', 'b'] ++
        (inGroup ['a', ')', '(', '?', ':', 'b'] ++ ['*'])) = .ok unrolled ∧
      plus.matchAt ['a', 'b'] 0 = some 2 ∧ unrolled.matchAt ['a', 'b'] 0 = none := by
  have hgroup : ∀ c ∉ specialChars,
      Derives .nameless .quantified ⟨inGroup [c], false, .char c⟩ :=
    fun c hplain => (Derives.char hplain).alternation_of_atom.inGroup.quantified_of_atom
  have hrepeated : ∀ sign : Sign, Derives .nameless .quantified
      ⟨inGroup ['b'] ++ [sign.char], false, .iterate (.char 'b') sign.quantifier⟩ :=
    fun sign => @Derives.quantified _ _ [sign]
      (Derives.char (by decide)).alternation_of_atom.inGroup (by simp)
  have ha := hgroup 'a' (by decide)
  have hb := hgroup 'b' (by decide)
  have hsplit : ∀ sign : Sign,
      compile .nameless (inGroup ['a', ')', '(', '?', ':', 'b'] ++ [sign.char]) =
        .ok ⟨inGroup ['a', ')', '(', '?', ':', 'b'] ++ [sign.char],
          .seq (.char 'a') (.iterate (.char 'b') sign.quantifier)⟩ := by
    intro sign
    have hrow := @Derives.concat _ [_, _] (by simpa using ⟨ha, hrepeated sign⟩)
    exact compile_of_derives hrow.alternation_of_concat rfl
  have hrow := @Derives.concat _ [_, _, _, _] (by simpa using ⟨ha, hb, ha, hrepeated .star⟩)
  have hunrolled := compile_of_derives hrow.alternation_of_concat
    (show _ = inGroup ['a', ')', '(', '?', ':', 'b'] ++
      (inGroup ['a', ')', '(', '?', ':', 'b'] ++ ['*']) from rfl)
  refine ⟨_, _, _, hsplit .star, hsplit .plus, hunrolled, ?_, ?_⟩
  · have hfirst : (Node.char 'a').ends (Cursor.start ['a', 'b']) =
        [(Cursor.start ['a', 'b']).pass 'a' ['b'] rfl] := rfl
    have hsecond : (Node.char 'b').steps.ends ((Cursor.start ['a', 'b']).pass 'a' ['b'] rfl) =
        [((Cursor.start ['a', 'b']).pass 'a' ['b'] rfl).pass 'b' [] rfl] := rfl
    have hmatch := matchAt_offset
      ⟨inGroup ['a', ')', '(', '?', ':', 'b'] ++ ['+'],
        .seq (.char 'a') (.iterate (.char 'b') .oneOrMore)⟩ (Cursor.start ['a', 'b'])
    rw [Node.ends_seq, hfirst, List.flatMap_singleton, Node.ends, Node.steps,
      Steps.ends_oneOrMore, hsecond, List.flatMap_singleton, Steps.ends_anyNumber] at hmatch
    exact hmatch
  · exact matchAt_offset _ (Cursor.start ['a', 'b'])

end Pattern

end EmojiPatterns
