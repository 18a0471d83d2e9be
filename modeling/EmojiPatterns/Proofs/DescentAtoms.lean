import EmojiPatterns.Proofs.Completeness
import EmojiPatterns.Proofs.DescentReaders

/-!
# The descent through atoms

Compiling adds tokens to a draft, while the descent calls itself for groups.  They keep in step:
wherever the descent is between two tokens, there is a draft from which compiling goes on to the
same result.  An atom is one node put into that draft, if bodies of groups are read as far as their
closing parenthesis.  Main statements: `opening_offset` and `atom_follows`.
-/

namespace EmojiPatterns

variable {source : List Char}

namespace Descent

variable {α β : Type} {resolver : Resolver} {stage next : Stage source} {c d : Cursor source}

/-- A parser keeps in step with a draft: it fails just as compiling does from the stage on, or it
comes to another stage from which compiling comes to the same. -/
def Follows (resolver : Resolver) (p : Parse α) (stage : Stage source)
    (post : α → Stage source → Prop) : Prop :=
  (∃ error, p stage.place.offset = some (.error error) ∧ stage.result resolver = .error error) ∨
    ∃ a next, p stage.place.offset = some (.ok (a, next.place.offset)) ∧
      stage.result resolver = next.result resolver ∧ post a next

namespace Follows

variable {p : Parse α} {f : α → Parse β} {post : α → Stage source → Prop}
  {after : β → Stage source → Prop}

theorem bind (hp : Follows resolver p stage post)
    (hf : ∀ a next, post a next → Follows resolver (f a) next after) :
    Follows resolver (p >>= f) stage after := by
  rcases hp with ⟨error, hrun, hresult⟩ | ⟨a, next, hrun, hresult, hpost⟩
  · exact .inl ⟨error, by simp [hrun], hresult⟩
  · rcases hf a next hpost with ⟨error, hrest, hfinal⟩ | ⟨b, last, hrest, hfinal, hafter⟩
    · exact .inl ⟨error, by simp [hrun, hrest], hresult.trans hfinal⟩
    · exact .inr ⟨b, last, by simp [hrun, hrest], hresult.trans hfinal, hafter⟩

/-- What does not move the parser leaves the stage as it is. -/
theorem bind_of_stays {a : α} (hrun : p stage.place.offset = some (.ok (a, stage.place.offset)))
    (hf : Follows resolver (f a) stage after) : Follows resolver (p >>= f) stage after := by
  rcases hf with ⟨error, hrest, hresult⟩ | ⟨b, last, hrest, hresult, hafter⟩
  · exact .inl ⟨error, by simp [hrun, hrest], hresult⟩
  · exact .inr ⟨b, last, by simp [hrun, hrest], hresult, hafter⟩

theorem of_stays {a : α} (hrun : p stage.place.offset = some (.ok (a, stage.place.offset)))
    (hpost : post a stage) : Follows resolver p stage post :=
  .inr ⟨a, stage, hrun, rfl, hpost⟩

/-- What has come from one stage to another goes on from there. -/
theorem of_advance {q : Parse α} (hrun : p stage.place.offset = q next.place.offset)
    (hresult : stage.result resolver = next.result resolver) (hq : Follows resolver q next post) :
    Follows resolver p stage post := by
  rcases hq with ⟨error, hfails, hrest⟩ | ⟨a, last, hreads, hrest, hpost⟩
  · exact .inl ⟨error, hrun.trans hfails, hresult.trans hrest⟩
  · exact .inr ⟨a, last, hrun.trans hreads, hresult.trans hrest, hpost⟩

theorem mono {weaker : α → Stage source → Prop} (hp : Follows resolver p stage post)
    (hweaker : ∀ a next, post a next → weaker a next) : Follows resolver p stage weaker := by
  rcases hp with hfails | ⟨a, next, hrun, hresult, hpost⟩
  · exact .inl hfails
  · exact .inr ⟨a, next, hrun, hresult, hweaker a next hpost⟩

end Follows

/-! ### Atoms -/

/-- One node is put into the draft for what stands between two places. -/
structure Pushes (stage : Stage source) (node : Node) (next : Stage source) : Prop where
  further : stage.place < next.place
  draft : next.draft = stage.draft.push stage.place.offset node

variable {p : Parse Node} {draft : Draft} {x : Char} {e : Cursor source}

theorem follows_of_read {token : Token} (result : Except PatternError Node)
    (hnext : c.next? = some (x, d)) (hread : Token.readFrom c.offset x d = .read token e)
    (hadd : draft.add resolver ⟨token, ⟨c.offset, e.offset⟩⟩ = result.map (draft.push c.offset))
    (hrun : p c.offset = some (result.map fun node => (node, e.offset))) :
    Follows resolver p ⟨c, draft⟩ (Pushes ⟨c, draft⟩) := by
  have hresult : Stage.result resolver ⟨c, draft⟩ = _ := Stage.result_of_read hnext hread
  rw [hadd] at hresult
  cases result with
  | error error => exact .inl ⟨error, hrun, hresult⟩
  | ok node =>
    have hends := Token.readFrom_endsAfter c.offset x (Cursor.lt_of_next?_eq_some hnext)
    rw [hread] at hends
    exact .inr ⟨node, ⟨e, draft.push c.offset node⟩, hrun, hresult, hends, rfl⟩

theorem follows_of_broken_none {error : SyntaxError} {post : Node → Stage source → Prop}
    (hnext : c.next? = some (x, d)) (hread : Token.readFrom c.offset x d = .broken none error)
    (hrun : p c.offset = some (.error (.malformed error))) :
    Follows resolver p ⟨c, draft⟩ post :=
  .inl ⟨_, hrun, Stage.result_of_broken hnext hread⟩

/-- An escape outside of classes. -/
theorem escape_follows (hnext : c.next? = some ('\\', d))
    (hrun : p c.offset = escape source resolver c.offset d.offset) :
    Follows resolver p ⟨c, draft⟩ (Pushes ⟨c, draft⟩) := by
  have hescape := escape_offset resolver c.offset d
  cases hread : Escape.read c.offset .topLevel d with
  | read value e =>
    rw [hread] at hescape
    cases value with
    | inl reference =>
      have htoken : Token.readFrom c.offset '\\' d = .read (.property reference) e := by
        simp only [Token.readFrom, hread, Reading.map]
      exact follows_of_read _ hnext htoken rfl (hrun.trans hescape)
    | inr y =>
      have htoken : Token.readFrom c.offset '\\' d = .read (.char y) e := by
        simp only [Token.readFrom, hread, Reading.map]
      exact follows_of_read (.ok (.char y)) hnext htoken rfl (hrun.trans hescape)
  | broken kept error =>
    have hbreaks := Escape.read_breaksOff c.offset .topLevel d
    rw [hread] at hescape hbreaks
    obtain ⟨rfl, -⟩ := hbreaks
    have htoken : Token.readFrom c.offset '\\' d = .broken none error := by
      simp only [Token.readFrom, hread, Reading.map, Option.map_none]
    exact follows_of_broken_none hnext htoken (hrun.trans hescape)

/-- A class, if there are steps enough for it. -/
theorem charClass_follows {steps : Nat} (hsteps : d.ahead.length < steps)
    (hnext : c.next? = some ('[', d))
    (hrun : p c.offset = charClass source resolver c.offset steps d.offset) :
    Follows resolver p ⟨c, draft⟩ (Pushes ⟨c, draft⟩) := by
  obtain ⟨negated, f, hset, hclass⟩ := charClass_offset resolver c.offset hsteps
  have hread : Token.readFrom c.offset '[' d = Token.readItems c.offset negated f := hset
  rw [hclass, classOutcome] at hrun
  rw [Token.readItems] at hread
  cases hitems : ClassItem.readAll c.offset negated f with
  | mk items result =>
    rw [hitems] at hread hrun
    cases hset : Draft.addItems resolver ⟨negated, .empty, []⟩ items with
    | error refused =>
      rw [hset] at hrun
      have hadd (span : Span) :
          draft.add resolver ⟨.set negated items, span⟩ = .error refused := by
        simp only [Draft.add, hset, Except.map]
      cases result with
      | ok e =>
        refine .inl ⟨refused, hrun, ?_⟩
        rw [Stage.result_of_read hnext hread, hadd]
      | error error =>
        refine .inl ⟨refused, hrun, ?_⟩
        rw [Stage.result_of_broken hnext hread]
        simp only [Option.toList_some, List.map_cons, List.map_nil, Draft.addAll, hadd]
    | ok out =>
      rw [hset] at hrun
      have hadd (span : Span) :
          draft.add resolver ⟨.set negated items, span⟩ =
            .ok (draft.push span.start (.set out)) := by
        simp only [Draft.add, hset, Except.map]
      cases result with
      | ok e =>
        exact follows_of_read (.ok (.set out)) hnext hread (hadd _) hrun
      | error error =>
        refine .inl ⟨_, hrun, ?_⟩
        rw [Stage.result_of_broken hnext hread]
        simp only [Option.toList_some, List.map_cons, List.map_nil, Draft.addAll, hadd]

/-- The signs of quantifiers are tokens by themselves. -/
theorem readFrom_of_quantifier? {quantifier : Quantifier}
    (hsign : quantifier? (some x) = some quantifier) (begin : Nat) (d : Cursor source) :
    Token.readFrom begin x d = .read (.quantifier quantifier) d ∧ x.utf8Size = 1 := by
  unfold quantifier? at hsign
  split at hsign
  · next heq =>
    cases heq
    cases hsign
    exact ⟨rfl, rfl⟩
  · next heq =>
    cases heq
    cases hsign
    exact ⟨rfl, rfl⟩
  · next heq =>
    cases heq
    cases hsign
    exact ⟨rfl, rfl⟩
  · cases hsign

/-- What a parenthesis opens. -/
theorem opening_offset (begin : Nat) (c : Cursor source) :
    (∃ kind, ∃ d : Cursor source, Token.readGroup begin c = .read (.openGroup kind) d ∧ c ≤ d ∧
        opening source begin c.offset = some (.ok (kind, d.offset))) ∨
      ∃ error, Token.readGroup begin c = .broken none error ∧
        opening source begin c.offset = some (.error (.malformed error)) := by
  by_cases hquestion : ∃ d, c.next? = some ('?', d)
  · obtain ⟨d, hd⟩ := hquestion
    have hahead := Cursor.next?_eq_some_iff.mp hd
    have hkind {y : Char} {e : Cursor source} (he : d.next? = some (y, e)) :
        c ≤ e ∧ tryConsume source ['?', y] c.offset = some (.ok (true, e.offset)) := by
      rw [Cursor.next?_eq_some_iff.mp he] at hahead
      have hword : c.ahead = ['?', y] ++ e.ahead := hahead
      exact ⟨Cursor.le_of_ahead_eq hword, tryConsume_of_ahead hword⟩
    have hother {y : Char} (hy : ∀ e, d.next? ≠ some (y, e)) :
        tryConsume source ['?', y] c.offset = some (.ok (false, c.offset)) := by
      apply tryConsume_of_not
      rw [hahead]
      rintro ⟨after, heq⟩
      obtain ⟨e, he, -⟩ := Cursor.exists_next?_eq_some (List.cons.inj heq).2.symm
      exact hy e he
    have hoffset : d.offset = c.offset + 1 := Cursor.offset_of_next? hd
    by_cases hcolon : ∃ e, d.next? = some (':', e)
    · obtain ⟨e, he⟩ := hcolon
      obtain ⟨hle, hconsume⟩ := hkind he
      exact .inl ⟨.plain, e, by simp only [Token.readGroup, hd, he], hle,
        by simp [opening, hconsume]⟩
    by_cases hequal : ∃ e, d.next? = some ('=', e)
    · obtain ⟨e, he⟩ := hequal
      obtain ⟨hle, hconsume⟩ := hkind he
      exact .inl ⟨.look false, e, by simp only [Token.readGroup, hd, he], hle,
        by simp [opening, hother (not_exists.mp hcolon), hconsume]⟩
    by_cases hexclaim : ∃ e, d.next? = some ('!', e)
    · obtain ⟨e, he⟩ := hexclaim
      obtain ⟨hle, hconsume⟩ := hkind he
      exact .inl ⟨.look true, e, by simp only [Token.readGroup, hd, he], hle,
        by simp [opening, hother (not_exists.mp hcolon), hother (not_exists.mp hequal), hconsume]⟩
    · rw [not_exists] at hcolon hequal hexclaim
      refine .inr ⟨⟨.unsupportedGroup, ⟨begin, d.offset⟩⟩, ?_, ?_⟩
      · simp only [Token.readGroup, hd]
      · simp [opening, hother hcolon, hother hequal, hother hexclaim, hahead, hoffset]
  · rw [not_exists] at hquestion
    refine .inl ⟨.plain, c, ?_, Cursor.le_refl c, ?_⟩
    · rw [Token.readGroup]
      split
      · next d hd => exact absurd hd (hquestion d)
      · rfl
    · have hpeek : c.ahead.head? ≠ some '?' := by
        intro hhead
        obtain ⟨d, hd⟩ := Cursor.exists_next?_of_head? hhead
        exact hquestion d hd
      simp [opening, tryConsume_of_next?_ne hquestion, hpeek]

/-- From one stage to the next the body of a group is read: the node is that of the scope, and the
closing parenthesis or the end comes next. -/
structure ReadsBody (stage : Stage source) (node : Node) (next : Stage source) : Prop where
  le : stage.place ≤ next.place
  opened : next.draft.opened = stage.draft.opened
  node : next.draft.scope.node = node
  ends : ∀ x d, next.place.next? = some (x, d) → x = ')'

/-- A parser for the bodies of groups: it starts from an empty scope, and few enough characters are
ahead. -/
def ReadsBodies (resolver : Resolver) (source : List Char) (body : Parse Node) (limit : Nat) :
    Prop :=
  ∀ stage : Stage source, stage.place.ahead.length < limit → stage.draft.scope = .empty →
    Follows resolver body stage (ReadsBody stage)

variable {body : Parse Node} {limit : Nat}

theorem group_follows (hbody : ReadsBodies resolver source body limit)
    (hnext : c.next? = some ('(', d)) (hlimit : d.ahead.length < limit)
    (hrun : p c.offset = group source body c.offset d.offset) :
    Follows resolver p ⟨c, draft⟩ (Pushes ⟨c, draft⟩) := by
  rcases opening_offset c.offset d with ⟨kind, e, hgroup, hle, hopening⟩ | ⟨error, hgroup, hopening⟩
  · have hread : Token.readFrom c.offset '(' d = .read (.openGroup kind) e := hgroup
    have hlt := Cursor.lt_of_next?_eq_some hnext
    have hopened : Stage.result resolver ⟨c, draft⟩ = _ := Stage.result_of_read hnext hread
    have hshorter : e.ahead.length < limit :=
      Nat.lt_of_le_of_lt (Cursor.ahead_length_le hle) hlimit
    rcases hbody ⟨e, ⟨.empty, ⟨kind, c.offset, draft.scope⟩ :: draft.opened⟩⟩ hshorter rfl with
      ⟨error, hfails, hresult⟩ | ⟨node, next, hreads, hresult, hbehind, hgroups, hnode, hclose⟩
    · exact .inl ⟨error, by simp [hrun, group, hopening, hfails], hopened.trans hresult⟩
    · cases hlast : next.place.next? with
      | none =>
        have hend : next.place.offset = utf8Length source :=
          Cursor.atEnd_iff_offset.mp (Cursor.next?_eq_none_iff.mp hlast)
        have hparen : ∀ f, next.place.next? ≠ some (')', f) := by simp [hlast]
        have hconsume := tryConsume_of_next?_ne hparen []
        rw [hend] at hconsume
        refine .inl ⟨.malformed ⟨.unclosedGroup, ⟨c.offset, utf8Length source⟩⟩, ?_, ?_⟩
        · simp [hrun, group, hopening, hreads, hend, hconsume]
        · rw [hopened]
          refine hresult.trans ?_
          rw [Stage.result_of_atEnd hlast, Draft.finish, hgroups]
      | some step =>
        obtain ⟨x, f⟩ := step
        obtain rfl := hclose x f hlast
        have hconsume := tryConsume_of_next? hlast
        have hadd (span : Span) : next.draft.add resolver ⟨.closeGroup, span⟩ =
            .ok (draft.push c.offset (kind.wrap node)) := by
          simp only [Draft.add, Draft.close, hgroups, hnode]
          rfl
        refine .inr ⟨kind.wrap node, ⟨f, draft.push c.offset (kind.wrap node)⟩, ?_, ?_, ?_, rfl⟩
        · simp [hrun, group, hopening, hreads, hconsume]
        · rw [hopened]
          refine hresult.trans ?_
          rw [Stage.result_of_read hlast rfl, hadd]
        · exact Cursor.lt_of_lt_of_le hlt (Cursor.le_trans hle (Cursor.le_trans hbehind
            (Cursor.le_of_lt (Cursor.lt_of_next?_eq_some hlast))))
  · exact follows_of_broken_none hnext hgroup (by simp [hrun, group, hopening])

/-- An atom that does not end the branch.  No sign of a quantifier may come first in a branch. -/
theorem atom_follows (hbody : ReadsBodies resolver source body limit) {steps : Nat}
    (hnext : c.next? = some (x, d)) (hlimit : d.ahead.length < limit)
    (hsteps : d.ahead.length < steps) (hbranch : x ≠ '|' ∧ x ≠ ')')
    (hsign : (quantifier? (some x)).isSome → draft.scope.items = []) :
    Follows resolver (atom source resolver body steps) ⟨c, draft⟩ (Pushes ⟨c, draft⟩) := by
  have hbump := bump_of_next? hnext
  have hpush {token : Token} {node : Node} (hread : Token.readFrom c.offset x d = .read token d)
      (hadd : ∀ span, draft.add resolver ⟨token, span⟩ = .ok (draft.push span.start node))
      (hrun : atom source resolver body steps c.offset = some (.ok (node, d.offset))) :
      Follows resolver (atom source resolver body steps) ⟨c, draft⟩ (Pushes ⟨c, draft⟩) :=
    follows_of_read (.ok node) hnext hread (hadd _) hrun
  by_cases hany : x = '.'
  · subst hany
    exact hpush rfl (fun _ => rfl) (by simp [atom, hbump])
  by_cases hstart : x = '^'
  · subst hstart
    exact hpush rfl (fun _ => rfl) (by simp [atom, hbump])
  by_cases hend : x = '$'
  · subst hend
    exact hpush rfl (fun _ => rfl) (by simp [atom, hbump])
  by_cases hgroup : x = '('
  · subst hgroup
    exact group_follows hbody hnext hlimit (by simp [atom, hbump])
  by_cases hclass : x = '['
  · subst hclass
    exact charClass_follows hsteps hnext (by simp [atom, hbump])
  by_cases hescape : x = '\\'
  · subst hescape
    exact escape_follows hnext (by simp [atom, hbump])
  cases hquantifier : quantifier? (some x) with
  | some quantifier =>
    have hread : Token.readFrom c.offset x d = .read (.quantifier quantifier) d :=
      (readFrom_of_quantifier? hquantifier c.offset d).1
    have hitems := hsign (by rw [hquantifier]; rfl)
    refine .inl ⟨.malformed ⟨.nothingToRepeat, ⟨c.offset, d.offset⟩⟩, ?_, ?_⟩
    · simp [atom, hbump, hquantifier]
    · rw [Stage.result_of_read hnext hread]
      simp only [Draft.add, Draft.quantify, hitems]
  | none =>
    have hplain : x ∉ specialChars := by
      have hstar : x ≠ '*' ∧ x ≠ '+' ∧ x ≠ '?' := by
        refine ⟨?_, ?_, ?_⟩ <;>
        · rintro rfl
          cases hquantifier
      simp [specialChars, hany, hstart, hend, hgroup, hclass, hescape, hbranch, hstar]
    exact hpush (Token.readFrom_of_not_special hplain) (fun _ => rfl)
      (by simp [atom, hbump, hquantifier])

end Descent

end EmojiPatterns
