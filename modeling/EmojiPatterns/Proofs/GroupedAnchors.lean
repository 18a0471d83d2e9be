import EmojiPatterns.Proofs.Composition

/-!
# Signs behind groups

A sign of repetition asks only for the node before it, and a plain group leaves no node behind but
that of its body.  So a group around a single anchor or lookahead can no more be repeated than the
anchor itself, while a group around two of them can.  Which sources are affected is said by their
text alone (`OnlyLooks`).  Main statements: `Derives.bare_iff_onlyLooks`,
`Pattern.sign_behind_group`.
-/

namespace EmojiPatterns

variable {resolver : Resolver}

/-- The sources that are just one anchor or one lookahead, with any plain groups around it. -/
inductive OnlyLooks (resolver : Resolver) : List Char → Prop where
  | textStart : OnlyLooks resolver ['^']
  | textEnd : OnlyLooks resolver ['$']
  | look {negated : Bool} {opening body : List Char} {pattern : Pattern}
      (hopening : (GroupKind.look negated).Opening opening)
      (hbody : Pattern.compile resolver body = .ok pattern) :
      OnlyLooks resolver (opening ++ (body ++ [')']))
  | group {opening body : List Char} (hopening : GroupKind.plain.Opening opening)
      (hbody : OnlyLooks resolver body) : OnlyLooks resolver (opening ++ (body ++ [')']))

namespace OnlyLooks

variable {source : List Char}

/-- Such a source is a bare phrase. -/
theorem exists_bare (hsource : OnlyLooks resolver source) :
    ∃ phrase, Derives resolver .alternation phrase ∧ phrase.text = source ∧
      phrase.bare = true := by
  induction hsource with
  | textStart => exact ⟨_, Derives.textStart.alternation_of_atom, rfl, rfl⟩
  | textEnd => exact ⟨_, Derives.textEnd.alternation_of_atom, rfl, rfl⟩
  | look hopening hbody =>
    obtain ⟨-, body, hphrase, rfl, -⟩ := Pattern.compile_eq_ok_iff_derives.mp hbody
    exact ⟨_, (Derives.group hopening hphrase).alternation_of_atom, rfl, rfl⟩
  | group hopening hbody ih =>
    obtain ⟨body, hphrase, rfl, hbare⟩ := ih
    exact ⟨_, (Derives.group hopening hphrase).alternation_of_atom, rfl, hbare⟩

end OnlyLooks

namespace Derives

variable {part : Part} {phrase : Phrase}

/-- What is bare in the grammar has the text of a source that only looks. -/
theorem onlyLooks_of_bare (hphrase : Derives resolver part phrase) (hbare : phrase.bare = true) :
    OnlyLooks resolver phrase.text := by
  induction hphrase with
  | textStart => exact .textStart
  | textEnd => exact .textEnd
  | anyChar | char | escape | strings | chars | set | setNot => cases hbare
  | @group kind opening body hopening hbody ih =>
    cases kind with
    | plain => exact .group hopening (ih hbare)
    | look negated => exact .look hopening (Pattern.compile_of_derives hbody rfl)
  | @quantified atom signs hatom hsigns ih =>
    rw [hsigns hbare, List.map_nil, List.append_nil]
    exact ih hbare
  | @concat items hitems ih =>
    match items with
    | [item] =>
      rw [List.flatMap_singleton]
      exact ih item List.mem_cons_self hbare
    | [] | _ :: _ :: _ => cases hbare
  | @alternation first rest hfirst hrest ihfirst ihrest =>
    cases rest with
    | nil =>
      rw [List.flatMap_nil, List.append_nil]
      exact ihfirst hbare
    | cons second rest => cases hbare

/-- Whether a pattern is bare can be told from its text. -/
theorem bare_iff_onlyLooks (hphrase : Derives resolver .alternation phrase) :
    phrase.bare = true ↔ OnlyLooks resolver phrase.text := by
  refine ⟨hphrase.onlyLooks_of_bare, ?_⟩
  intro hlooks
  -- The text may be derived as another phrase, but it has one tree, and that tells which is bare.
  obtain ⟨other, hother, htext, hbare⟩ := hlooks.exists_bare
  have hnode := hother.repeatable_eq
  rw [hother.node_eq hphrase htext, hphrase.repeatable_eq, hbare] at hnode
  exact Bool.not_inj hnode

end Derives

namespace Stage

/-- A sign behind an item that cannot be repeated ends compiling with a fault that reaches from
where the item begins to behind the sign. -/
theorem result_of_sign {source : List Char} {c d : Cursor source} {draft : Draft} {begin : Nat}
    {node : Node} (sign : Sign) (hnode : node.repeatable = false)
    (hnext : c.next? = some (sign.char, d)) :
    result resolver ⟨c, draft.push begin node⟩ =
      .error (.malformed ⟨.nothingToRepeat, ⟨begin, d.offset⟩⟩) := by
  rw [result_of_read hnext (Token.readFrom_sign sign)]
  simp [Draft.add, Draft.quantify, Draft.push, Scope.push, hnode]

end Stage

namespace Pattern

variable {opening : List Char} {phrase : Phrase}

theorem compile_group_sign (hopening : GroupKind.plain.Opening opening)
    (hphrase : Derives resolver .alternation phrase) (hbare : phrase.bare = false) (sign : Sign) :
    compile resolver (opening ++ (phrase.text ++ [')', sign.char])) =
      .ok ⟨opening ++ (phrase.text ++ [')', sign.char]),
        .iterate phrase.node sign.quantifier⟩ := by
  have hgroup := @compile_group_signs _ _ _ _ [sign] hopening hphrase
    fun hgroup => absurd hgroup (Bool.eq_false_iff.mp hbare)
  simpa [GroupKind.wrap, Node.repeated] using hgroup

theorem compile_group_sign_of_bare (hopening : GroupKind.plain.Opening opening)
    (hphrase : Derives resolver .alternation phrase) (hbare : phrase.bare = true) (sign : Sign) :
    compile resolver (opening ++ (phrase.text ++ [')', sign.char])) =
      .error (.malformed ⟨.nothingToRepeat,
        ⟨0, utf8Length (opening ++ (phrase.text ++ [')', sign.char]))⟩⟩) := by
  have hsplit : opening ++ (phrase.text ++ [')', sign.char]) =
      opening ++ (phrase.text ++ [')']) ++ sign.char :: [] := by simp
  generalize opening ++ (phrase.text ++ [')', sign.char]) = source at hsplit ⊢
  obtain ⟨c, hc⟩ := Cursor.exists_ahead_eq (c := Cursor.start source) hsplit
  obtain ⟨d, hnext, hd⟩ := Cursor.exists_next?_eq_some hc
  have hend : d.offset = utf8Length source := Cursor.atEnd_iff_offset.mp hd
  have hgroup : Stage.Reaches resolver ⟨Cursor.start source, .empty⟩
      ⟨c, Draft.empty.push 0 phrase.node⟩ :=
    Covers.reaches_group hopening hphrase hphrase.covers .empty (hc ▸ hsplit)
  have hnode : phrase.node.repeatable = false := by
    rw [hphrase.repeatable_eq, hbare]
    rfl
  rw [compile_eq_error_iff, Node.ofText_eq_result, hgroup.result_eq,
    Stage.result_of_sign sign hnode hnext, hend]

/-- A sign may stand behind the group of a source that compiles unless that source only looks, and
then repeats what the source stands for.  Otherwise the whole group is reported to be nothing that
can be repeated. -/
theorem sign_behind_group {p : List Char} {pattern : Pattern}
    (hcompile : compile resolver p = .ok pattern) (hopening : GroupKind.plain.Opening opening)
    (sign : Sign) :
    (¬ OnlyLooks resolver p → compile resolver (opening ++ (p ++ [')', sign.char])) =
      .ok ⟨opening ++ (p ++ [')', sign.char]), .iterate pattern.root sign.quantifier⟩) ∧
    (OnlyLooks resolver p → compile resolver (opening ++ (p ++ [')', sign.char])) =
      .error (.malformed ⟨.nothingToRepeat,
        ⟨0, utf8Length (opening ++ (p ++ [')', sign.char]))⟩⟩)) := by
  obtain ⟨-, phrase, hphrase, rfl, hroot⟩ := compile_eq_ok_iff_derives.mp hcompile
  rw [← hroot, ← hphrase.bare_iff_onlyLooks, Bool.not_eq_true]
  exact ⟨fun hbare => compile_group_sign hopening hphrase hbare sign,
    fun hbare => compile_group_sign_of_bare hopening hphrase hbare sign⟩

theorem sign_behind_group_carets :
    compile .nameless ['^', '^'] = .ok ⟨['^', '^'], .seq .textStart .textStart⟩ ∧
      compile .nameless ['(', '?', ':', '^', '^', ')', '*'] =
        .ok ⟨['(', '?', ':', '^', '^', ')', '*'],
          .iterate (.seq .textStart .textStart) .anyNumber⟩ := by
  have hcarets : Derives .nameless .alternation ⟨['^', '^'], false, .seq .textStart .textStart⟩ :=
    @Derives.alternation_of_atoms _ [⟨['^'], true, .textStart⟩, ⟨['^'], true, .textStart⟩]
      (by simpa using Derives.textStart)
  have hcompile := compile_of_derives hcarets rfl
  have hsource : ¬ OnlyLooks .nameless ['^', '^'] :=
    fun hlooks => Bool.false_ne_true (hcarets.bare_iff_onlyLooks.mpr hlooks)
  exact ⟨hcompile, (sign_behind_group hcompile .plain .star).1 hsource⟩

/-- A caret is a pattern, and the group around it cannot be repeated. -/
theorem star_behind_grouped_caret :
    compile .nameless ['^'] = .ok ⟨['^'], .textStart⟩ ∧
      compile .nameless ['(', '?', ':', '^', ')', '*'] =
        .error (.malformed ⟨.nothingToRepeat, ⟨0, 6⟩⟩) := by
  have hcaret : Derives .nameless .alternation ⟨['^'], true, .textStart⟩ :=
    Derives.textStart.alternation_of_atom
  exact ⟨compile_of_derives hcaret rfl, compile_group_sign_of_bare .plain hcaret rfl .star⟩

end Pattern

end EmojiPatterns
