import EmojiPatterns.Proofs.DescentAtoms
import EmojiPatterns.Proofs.ErrorSpans

/-!
# The descent never gets stuck

The loops for signs, items and branches take no more steps than characters are ahead, and groups are
nested no deeper, so the bounds of the descent are never met.  Main statements:
`Descent.compile?_eq_ofText`, that the descent gives what compiling gives, and
`Pattern.compile_is_safe`.
-/

namespace EmojiPatterns

variable {source : List Char}

namespace Descent

variable {resolver : Resolver} {stage next : Stage source} {c d : Cursor source} {draft : Draft}
  {x : Char} {body : Parse Node} {limit : Nat}

/-! ### Signs -/

/-- No sign of a quantifier comes next. -/
def NoSign (c : Cursor source) : Prop :=
  quantifier? c.ahead.head? = none

/-- The last item of a branch is read, with all the signs behind it. -/
structure PushesWhole (stage : Stage source) (node : Node) (next : Stage source) : Prop
    extends Pushes stage node next where
  noSign : NoSign next.place

theorem exists_next?_of_quantifier? {quantifier : Quantifier}
    (hquantifier : quantifier? c.ahead.head? = some quantifier) :
    ∃ x d, c.next? = some (x, d) := by
  cases hnext : c.next? with
  | none =>
    have hahead : c.ahead = [] := Cursor.next?_eq_none_iff.mp hnext
    rw [hahead] at hquantifier
    cases hquantifier
  | some step => exact ⟨step.1, step.2, rfl⟩

theorem quantifiers_follows {begin steps : Nat} {node : Node} {base : Draft}
    (hdraft : stage.draft = base.push begin node) (hsteps : stage.place.ahead.length < steps) :
    Follows resolver (quantifiers source begin steps node) stage fun repeated next =>
      stage.place ≤ next.place ∧ next.draft = base.push begin repeated ∧ NoSign next.place := by
  induction steps generalizing stage node with
  | zero => exact absurd hsteps (Nat.not_lt_zero _)
  | succ steps ih =>
    obtain ⟨c, draft⟩ := stage
    obtain rfl : draft = base.push begin node := hdraft
    cases hquantifier : quantifier? c.ahead.head? with
    | none =>
      have hstays : quantifiers source begin (steps + 1) node c.offset =
          some (.ok (node, c.offset)) := by
        simp [quantifiers, hquantifier]
      exact .of_stays hstays ⟨Cursor.le_refl c, rfl, hquantifier⟩
    | some quantifier =>
      obtain ⟨x, d, hnext⟩ := exists_next?_of_quantifier? hquantifier
      have hsign := hquantifier
      rw [Cursor.next?_eq_some_iff.mp hnext, List.head?_cons] at hsign
      have hread : Token.readFrom c.offset x d = .read (.quantifier quantifier) d :=
        (readFrom_of_quantifier? hsign c.offset d).1
      have hresult : Stage.result resolver ⟨c, base.push begin node⟩ = _ :=
        Stage.result_of_read hnext hread
      by_cases hrepeatable : node.repeatable
      · have hadd (span : Span) :
            (base.push begin node).add resolver ⟨.quantifier quantifier, span⟩ =
              .ok (base.push begin (.iterate node quantifier)) := by
          simp [Draft.add, Draft.quantify, Draft.push, Scope.push, hrepeatable]
        rw [hadd] at hresult
        have hlt := Cursor.lt_of_next?_eq_some hnext
        have hshorter : d.ahead.length < steps :=
          Nat.lt_of_lt_of_le (Cursor.ahead_length_lt hlt) (Nat.le_of_lt_succ hsteps)
        have hrun : quantifiers source begin (steps + 1) node c.offset =
            quantifiers source begin steps (.iterate node quantifier) d.offset := by
          simp [quantifiers, hquantifier, hrepeatable, bump_of_next? hnext]
        let repeating : Stage source := ⟨d, base.push begin (.iterate node quantifier)⟩
        have hrest : Follows resolver (quantifiers source begin steps (.iterate node quantifier))
            repeating _ := ih rfl hshorter
        refine Follows.of_advance hrun hresult (hrest.mono ?_)
        rintro repeated last ⟨hle, hdraft, hnosign⟩
        exact ⟨Cursor.le_trans (Cursor.le_of_lt hlt) hle, hdraft, hnosign⟩
      · have hoffset := Cursor.offset_of_next? hnext
        rw [(readFrom_of_quantifier? hsign begin d).2] at hoffset
        refine .inl ⟨.malformed ⟨.nothingToRepeat, ⟨begin, d.offset⟩⟩, ?_, ?_⟩
        · simp [quantifiers, hquantifier, hrepeatable, hoffset]
        · rw [hresult]
          simp [Draft.add, Draft.quantify, Draft.push, Scope.push, hrepeatable]

theorem quantified_follows (hbody : ReadsBodies resolver source body limit) {steps : Nat}
    (hnext : c.next? = some (x, d)) (hlimit : d.ahead.length < limit)
    (hsteps : c.ahead.length < steps) (hbranch : x ≠ '|' ∧ x ≠ ')')
    (hsign : NoSign c ∨ draft.scope.items = []) :
    Follows resolver (quantified source resolver body steps) ⟨c, draft⟩
      (PushesWhole ⟨c, draft⟩) := by
  have hahead := Cursor.next?_eq_some_iff.mp hnext
  have hshorter := Cursor.ahead_length_lt (Cursor.lt_of_next?_eq_some hnext)
  have hfirst : (quantifier? (some x)).isSome → draft.scope.items = [] := by
    intro hquantifier
    refine hsign.resolve_left ?_
    intro hnone
    rw [NoSign, hahead, List.head?_cons] at hnone
    rw [hnone] at hquantifier
    cases hquantifier
  have hatom := atom_follows hbody hnext hlimit (Nat.lt_trans hshorter hsteps) hbranch hfirst
  refine Follows.bind_of_stays rfl (hatom.bind ?_)
  intro node next hpushes
  have hfewer : next.place.ahead.length < steps :=
    Nat.lt_trans (Cursor.ahead_length_lt hpushes.further) hsteps
  refine (quantifiers_follows hpushes.draft hfewer).mono ?_
  rintro repeated last ⟨hle, hdraft, hnosign⟩
  exact ⟨⟨Cursor.lt_of_lt_of_le hpushes.further hle, hdraft⟩, hnosign⟩

/-! ### Items and branches -/

/-- From one stage to the next the rest of a branch is read: the node is that of the whole branch,
and what ends it comes next. -/
structure ReadsBranch (stage : Stage source) (node : Node) (next : Stage source) : Prop where
  le : stage.place ≤ next.place
  opened : next.draft.opened = stage.draft.opened
  branches : next.draft.scope.branches = stage.draft.scope.branches
  branch : next.draft.scope.branch = node
  ends : ∀ x d, next.place.next? = some (x, d) → x = '|' ∨ x = ')'

/-- A branch with some items in it, up to what ends the branch. -/
theorem branchItems_follows (hbody : ReadsBodies resolver source body limit) {bound steps : Nat}
    {nodes : List Node} (hlimit : stage.place.ahead.length ≤ limit)
    (hbound : stage.place.ahead.length < bound) (hsteps : stage.place.ahead.length < steps)
    (hnodes : stage.draft.scope.items.reverse.map (·.node) = nodes)
    (hsign : NoSign stage.place ∨ stage.draft.scope.items = []) :
    Follows resolver (branchItems source resolver body bound steps nodes) stage
      (ReadsBranch stage) := by
  induction steps generalizing stage nodes with
  | zero => exact absurd hsteps (Nat.not_lt_zero _)
  | succ steps ih =>
    obtain ⟨c, draft⟩ := stage
    have hbranch : draft.scope.branch = Node.sequence nodes := by rw [Scope.branch, hnodes]
    refine Follows.bind_of_stays (peek_offset c) ?_
    cases hnext : c.next? with
    | none =>
      have hahead : c.ahead = [] := Cursor.next?_eq_none_iff.mp hnext
      rw [hahead]
      exact .of_stays rfl ⟨Cursor.le_refl c, rfl, rfl, hbranch, by simp [hnext]⟩
    | some step =>
      obtain ⟨x, d⟩ := step
      rw [Cursor.next?_eq_some_iff.mp hnext, List.head?_cons]
      by_cases hends : x = '|' ∨ x = ')'
      · have hlast : ∀ y e, c.next? = some (y, e) → y = '|' ∨ y = ')' := by
          intro y e hsame
          rw [hnext] at hsame
          cases hsame
          exact hends
        rcases hends with rfl | rfl
        · exact .of_stays rfl ⟨Cursor.le_refl c, rfl, rfl, hbranch, hlast⟩
        · exact .of_stays rfl ⟨Cursor.le_refl c, rfl, rfl, hbranch, hlast⟩
      · obtain ⟨hbar, hparen⟩ := not_or.mp hends
        have hshorter := Cursor.ahead_length_lt (Cursor.lt_of_next?_eq_some hnext)
        have hitem := quantified_follows hbody hnext (Nat.lt_of_lt_of_le hshorter hlimit) hbound
          ⟨hbar, hparen⟩ hsign
        simp only
        refine hitem.bind ?_
        intro node next hpushes
        have hfewer := Cursor.ahead_length_lt hpushes.further
        have hitems : next.draft.scope.items.reverse.map (·.node) = nodes ++ [node] := by
          rw [hpushes.draft, ← hnodes]
          simp [Draft.push, Scope.push]
        refine (ih ?_ ?_ ?_ hitems (.inl hpushes.noSign)).mono ?_
        · exact Nat.le_of_lt (Nat.lt_of_lt_of_le hfewer hlimit)
        · exact Nat.lt_trans hfewer hbound
        · exact Nat.lt_of_lt_of_le hfewer (Nat.le_of_lt_succ hsteps)
        · intro whole last hreads
          have hle := Cursor.le_trans (Cursor.le_of_lt hpushes.further) hreads.le
          refine ⟨hle, ?_, ?_, hreads.branch, hreads.ends⟩
          · rw [hreads.opened, hpushes.draft]
            rfl
          · rw [hreads.branches, hpushes.draft]
            rfl

/-- The branches that follow others, up to what ends the alternation. -/
theorem laterBranches_follows (hbody : ReadsBodies resolver source body limit) {bound steps : Nat}
    {first : Node} {later : List Node} (hlimit : stage.place.ahead.length ≤ limit)
    (hbound : stage.place.ahead.length < bound) (hsteps : stage.place.ahead.length < steps)
    (hnodes : stage.draft.scope.nodes = first :: later)
    (hends : ∀ x d, stage.place.next? = some (x, d) → x = '|' ∨ x = ')') :
    Follows resolver (laterBranches source resolver body bound first steps later) stage
      (ReadsBody stage) := by
  induction steps generalizing stage later with
  | zero => exact absurd hsteps (Nat.not_lt_zero _)
  | succ steps ih =>
    obtain ⟨c, draft⟩ := stage
    by_cases hbar : ∃ d, c.next? = some ('|', d)
    · obtain ⟨d, hnext⟩ := hbar
      have hconsume := tryConsume_of_next? hnext
      have hlt := Cursor.lt_of_next?_eq_some hnext
      have hfewer := Cursor.ahead_length_lt hlt
      let divided : Stage source := ⟨d, { draft with scope := draft.scope.divide }⟩
      have hresult : Stage.result resolver ⟨c, draft⟩ = divided.result resolver :=
        Stage.result_of_read hnext rfl
      have hbranch : Follows resolver (branchItems source resolver body bound bound []) divided
          (ReadsBranch divided) :=
        branchItems_follows hbody (Nat.le_of_lt (Nat.lt_of_lt_of_le hfewer hlimit))
          (Nat.lt_trans hfewer hbound) (Nat.lt_trans hfewer hbound) rfl (.inr rfl)
      have hrun : laterBranches source resolver body bound first (steps + 1) later c.offset =
          (branchItems source resolver body bound bound [] >>= fun branch =>
            laterBranches source resolver body bound first steps (later ++ [branch])) d.offset := by
        simp [laterBranches, hconsume]
      refine Follows.of_advance hrun hresult (hbranch.bind ?_)
      intro node next hreads
      have hremaining : next.place.ahead.length ≤ d.ahead.length :=
        Cursor.ahead_length_le hreads.le
      have hmore : next.draft.scope.nodes = first :: (later ++ [node]) := by
        rw [Scope.nodes, hreads.branches, hreads.branch, ← List.cons_append, ← hnodes, Scope.nodes]
        simp [divided, Scope.divide]
      have hshorter := Nat.lt_of_le_of_lt hremaining hfewer
      refine (ih ?_ ?_ ?_ hmore hreads.ends).mono ?_
      · exact Nat.le_of_lt (Nat.lt_of_lt_of_le hshorter hlimit)
      · exact Nat.lt_trans hshorter hbound
      · exact Nat.lt_of_lt_of_le hshorter (Nat.le_of_lt_succ hsteps)
      · intro whole last hrest
        have hle := Cursor.le_trans (Cursor.le_of_lt hlt) (Cursor.le_trans hreads.le hrest.le)
        exact ⟨hle, hrest.opened.trans hreads.opened, hrest.node, hrest.ends⟩
    · rw [not_exists] at hbar
      have hstays : laterBranches source resolver body bound first (steps + 1) later c.offset =
          some (.ok (Node.choice first later, c.offset)) := by
        simp [laterBranches, tryConsume_of_next?_ne hbar]
      refine .of_stays hstays ⟨Cursor.le_refl c, rfl, Scope.node_eq_choice hnodes, ?_⟩
      intro x d hnext
      refine (hends x d hnext).resolve_left ?_
      rintro rfl
      exact hbar d hnext

/-- An alternation is read as deep as its groups can be nested. -/
theorem alternation_follows (resolver : Resolver) {bound : Nat}
    (hbound : ∀ c : Cursor source, c.ahead.length < bound) (depth : Nat) :
    ReadsBodies resolver source (alternation source resolver bound depth) depth := by
  induction depth with
  | zero =>
    intro stage hlimit
    exact absurd hlimit (Nat.not_lt_zero _)
  | succ depth ih =>
    intro stage hlimit hscope
    have hnone : stage.draft.scope.items = [] := by rw [hscope, Scope.empty]
    -- A group in the branch is behind one more parenthesis, so its body has a level to spare.
    have hfirst := branchItems_follows ih (Nat.le_of_lt_succ hlimit) (hbound stage.place)
      (hbound stage.place) (show _ = [] by rw [hnone]; rfl) (.inr hnone)
    refine hfirst.bind ?_
    intro node next hreads
    have hnodes : next.draft.scope.nodes = [node] := by
      rw [Scope.nodes, hreads.branches, hreads.branch, hscope]
      rfl
    have hshorter : next.place.ahead.length ≤ depth :=
      Nat.le_trans (Cursor.ahead_length_le hreads.le) (Nat.le_of_lt_succ hlimit)
    have hlater := laterBranches_follows ih hshorter (hbound next.place) (hbound next.place)
      hnodes hreads.ends
    refine hlater.mono ?_
    intro whole last hrest
    exact ⟨Cursor.le_trans hreads.le hrest.le, hrest.opened.trans hreads.opened, hrest.node,
      hrest.ends⟩

/-- The descent is never stuck, and gives what compiling gives. -/
theorem compile?_eq_ofText (resolver : Resolver) (source : List Char) :
    compile? source resolver = some (Node.ofText resolver source) := by
  have hbound : ∀ c : Cursor source, c.ahead.length < source.length + 1 := by
    intro c
    exact Nat.lt_succ_of_le (Cursor.ahead_length_le (Cursor.start_le c))
  have hwhole := alternation_follows resolver hbound (source.length + 1)
    ⟨Cursor.start source, .empty⟩ (hbound _) rfl
  rw [Node.ofText_eq_result]
  rcases hwhole with
    ⟨error, hfails, hresult⟩ | ⟨node, next, hreads, hresult, hbody⟩
  · have hfails : alternation source resolver (source.length + 1) (source.length + 1) 0 =
        some (.error error) := hfails
    rw [hresult]
    simp [compile?, parse, hfails, Except.map]
  · have hreads : alternation source resolver (source.length + 1) (source.length + 1) 0 =
        some (.ok (node, next.place.offset)) := hreads
    rw [hresult]
    cases hlast : next.place.next? with
    | none =>
      have hend : next.place.offset = utf8Length source :=
        Cursor.atEnd_iff_offset.mp (Cursor.next?_eq_none_iff.mp hlast)
      rw [Stage.result_of_atEnd hlast, Draft.finish, hbody.opened, hbody.node]
      simp [compile?, parse, hreads, hend, Except.map, Draft.empty]
    | some step =>
      obtain ⟨x, d⟩ := step
      obtain rfl := hbody.ends x d hlast
      have hoffset : d.offset = next.place.offset + 1 := Cursor.offset_of_next? hlast
      have hlength := d.offset_add_utf8Length_ahead
      have hbefore : next.place.offset < utf8Length source := by omega
      have hadd (span : Span) : next.draft.add resolver ⟨.closeGroup, span⟩ =
          .error (.malformed ⟨.unmatchedClose, span⟩) := by
        simp only [Draft.add, Draft.close, hbody.opened, Draft.empty]
      rw [Stage.result_of_read hlast rfl, hadd, hoffset]
      simp [compile?, parse, hreads, hbefore, Except.map]

end Descent

/-! ### Compiling is safe -/

namespace Pattern

/-- Compiling by recursive descent on nothing but a byte offset is never stuck: it ends within its
steps, cuts the source only between characters and finds only sets of characters in classes.  It
gives what compiling gives, and the error that it may give is about a part of the source that holds
at least one character and that can be cut out. -/
theorem compile_is_safe (resolver : Resolver) (source : List Char) :
    (Descent.compile? source resolver).map (·.map fun root => ⟨source, root⟩) =
        some (compile resolver source) ∧
      ∀ fault, compile resolver source = .error fault →
        fault.span.start < fault.span.stop ∧ fault.span.stop ≤ utf8Length source ∧
        (cut? source fault.span.start).isSome ∧ (cut? source fault.span.stop).isSome := by
  constructor
  · rw [Descent.compile?_eq_ofText, Option.map_some, compile]
  · intro fault hcompile
    obtain ⟨c, d, -, hlt, hspan⟩ := span_from_of_compile hcompile
    obtain ⟨before, hstart⟩ := c.exists_cut?_eq_some
    obtain ⟨through, hstop⟩ := d.exists_cut?_eq_some
    have hle : d.offset ≤ utf8Length source :=
      Nat.le.intro d.offset_add_utf8Length_ahead
    rw [hspan, hstart, hstop]
    exact ⟨hlt, hle, rfl, rfl⟩

theorem compile_is_safe_unmatched :
    compile ⟨Table.empty .pinned, fun _ => none, true⟩ ['é', ')'] =
        .error (.malformed ⟨.unmatchedClose, ⟨2, 3⟩⟩) ∧
      (cut? ['é', ')'] 2).isSome ∧ (cut? ['é', ')'] 3).isSome := by
  obtain ⟨hruns, hspan⟩ :=
    compile_is_safe ⟨Table.empty .pinned, fun _ => none, true⟩ ['é', ')']
  have hfails : compile ⟨Table.empty .pinned, fun _ => none, true⟩ ['é', ')'] =
      .error (.malformed ⟨.unmatchedClose, ⟨2, 3⟩⟩) :=
    (Option.some.inj hruns).symm
  obtain ⟨-, -, hcuts⟩ := hspan _ hfails
  exact ⟨hfails, hcuts⟩

end Pattern

end EmojiPatterns
