import EmojiPatterns.Proofs.PropertyRejections

/-!
# The spans of errors

What a draft holds began before the place that the reading has come to, so a fault that is found
when a token is added goes from one place in the source to a later one, as the readers' own faults
do.  Main statement: `Pattern.span_from_of_compile`.
-/

namespace EmojiPatterns

variable {source : List Char}

/-- An offset of a place before another place. -/
def Cursor.Passed (c : Cursor source) (offset : Nat) : Prop :=
  ∃ a : Cursor source, a < c ∧ offset = a.offset

/-- From a place that is passed the source goes on up to the present place. -/
theorem Cursor.Passed.span_from {c : Cursor source} {offset : Nat} (hpassed : c.Passed offset) :
    Span.From ⟨offset, c.offset⟩ (Cursor.start source) := by
  obtain ⟨a, hlt, rfl⟩ := hpassed
  exact ⟨a, c, Cursor.start_le a, hlt, rfl⟩

def Scope.BeganBefore (scope : Scope) (c : Cursor source) : Prop :=
  ∀ item ∈ scope.items, c.Passed item.begin

namespace Draft

/-- Everything in a draft began before a place. -/
structure BeganBefore (draft : Draft) (c : Cursor source) : Prop where
  scope : draft.scope.BeganBefore c
  groups : ∀ group ∈ draft.opened, c.Passed group.begin ∧ group.outer.BeganBefore c

variable {resolver : Resolver} {draft next : Draft} {c d : Cursor source}

theorem beganBefore_empty (c : Cursor source) : Draft.empty.BeganBefore c :=
  ⟨List.forall_mem_nil _, List.forall_mem_nil _⟩

theorem BeganBefore.of_le (hbegan : draft.BeganBefore c) (hle : c ≤ d) : draft.BeganBefore d := by
  have hpassed {offset : Nat} (hpassed : c.Passed offset) : d.Passed offset := by
    obtain ⟨a, hlt, heq⟩ := hpassed
    exact ⟨a, Cursor.lt_of_lt_of_le hlt hle, heq⟩
  refine ⟨fun item hmem => hpassed (hbegan.scope item hmem), ?_⟩
  intro group hmem
  obtain ⟨hgroup, houter⟩ := hbegan.groups group hmem
  exact ⟨hpassed hgroup, fun item hmem => hpassed (houter item hmem)⟩

theorem BeganBefore.push {begin : Nat} (hbegan : draft.BeganBefore c) (hbegin : c.Passed begin)
    (node : Node) : (draft.push begin node).BeganBefore c := by
  refine ⟨?_, hbegan.groups⟩
  intro item hmem
  rcases List.mem_cons.mp hmem with rfl | hmem
  · exact hbegin
  · exact hbegan.scope item hmem

variable {placed : PlacedToken}

/-- The faults of escapes are not faults of the syntax. -/
theorem resolve_ne_malformed (reference : PropertyReference) (error : SyntaxError) :
    resolve resolver reference ≠ .error (.malformed error) := by
  intro hresolve
  obtain ⟨_, _, hfault⟩ := resolve_eq_error_iff.mp hresolve
  cases hfault

theorem addItems_ne_malformed (set : CharSet) (items : List ClassItem) (error : SyntaxError) :
    addItems resolver set items ≠ .error (.malformed error) := by
  fun_induction addItems resolver set items with
  | case1 =>
    intro hadd
    cases hadd
  | case2 set lo hi rest ih => exact ih
  | case3 set reference rest fault hrefused =>
    intro hadd
    cases hadd
    rw [resolveInClass] at hrefused
    split at hrefused <;> cases hrefused
  | case4 set reference rest test htest ih => exact ih

/-- The fault of a token that does not fit goes from where something began up to its end. -/
theorem span_from_of_add_eq_error {error : SyntaxError} (hbegan : draft.BeganBefore d)
    (hstart : d.Passed placed.span.start) (hstop : placed.span.stop = d.offset)
    (hadd : draft.add resolver placed = .error (.malformed error)) :
    error.span.From (Cursor.start source) := by
  have htoken : placed.span.From (Cursor.start source) := by
    have hspan := hstart.span_from
    rwa [← hstop] at hspan
  obtain ⟨token, span⟩ := placed
  cases token with
  | char | anyChar | textStart | textEnd | openGroup | bar => cases hadd
  | closeGroup =>
    obtain ⟨-, heq⟩ := close_eq_error_iff.mp hadd
    cases heq
    exact htoken
  | quantifier quantifier =>
    rcases quantify_eq_error_iff.mp hadd with ⟨-, heq⟩ | ⟨item, rest, hitems, -, heq⟩
    · cases heq
      exact htoken
    · cases heq
      have hitem := hbegan.scope item (hitems ▸ List.mem_cons_self)
      rw [hstop]
      exact hitem.span_from
  | property reference =>
    exact absurd (add_property_eq_error_iff.mp hadd) (resolve_ne_malformed reference error)
  | set negated items =>
    exact absurd (add_set_eq_error_iff.mp hadd) (addItems_ne_malformed _ items error)

/-- A token that fits leaves what is in the draft before its end. -/
theorem BeganBefore.add (hbegan : draft.BeganBefore d) (hstart : d.Passed placed.span.start)
    (hadd : draft.add resolver placed = .ok next) : next.BeganBefore d := by
  obtain ⟨token, span⟩ := placed
  cases token with
  | char | anyChar | textStart | textEnd =>
    cases hadd
    exact hbegan.push hstart _
  | openGroup kind =>
    cases hadd
    refine ⟨List.forall_mem_nil _, ?_⟩
    intro group hmem
    rcases List.mem_cons.mp hmem with rfl | hmem
    · exact ⟨hstart, hbegan.scope⟩
    · exact hbegan.groups group hmem
  | closeGroup =>
    obtain ⟨group, rest, hopened, rfl⟩ := close_eq_ok_iff.mp hadd
    obtain ⟨hgroup, houter⟩ := hbegan.groups group (hopened ▸ List.mem_cons_self)
    have hrest : BeganBefore ⟨group.outer, rest⟩ d := by
      refine ⟨houter, ?_⟩
      intro other hmem
      exact hbegan.groups other (hopened ▸ List.mem_cons_of_mem _ hmem)
    exact hrest.push hgroup _
  | bar =>
    cases hadd
    exact ⟨List.forall_mem_nil _, hbegan.groups⟩
  | quantifier quantifier =>
    obtain ⟨item, rest, hitems, -, rfl⟩ := quantify_eq_ok_iff.mp hadd
    have hscope := hbegan.scope
    rw [Scope.BeganBefore, hitems, List.forall_mem_cons] at hscope
    refine ⟨?_, hbegan.groups⟩
    rw [Scope.BeganBefore, List.forall_mem_cons]
    exact hscope
  | property reference =>
    obtain ⟨node, -, rfl⟩ := add_property_eq_ok_iff.mp hadd
    exact hbegan.push hstart _
  | set negated items =>
    obtain ⟨set, -, rfl⟩ := add_set_eq_ok_iff.mp hadd
    exact hbegan.push hstart _

/-- What is found wrong in a text, when its tokens are added, is found in a part of it. -/
theorem span_from_of_addAll_eq_error {error : SyntaxError} (hbegan : draft.BeganBefore c)
    (hadd : draft.addAll resolver (Tokens.readAll c).tokens = .error (.malformed error)) :
    error.span.From (Cursor.start source) := by
  fun_induction Tokens.readAll c generalizing draft with
  | case1 => cases hadd
  | case2 c x d hnext token e hread rest =>
    rename_i ih
    have hends := Token.readFrom_endsAfter c.offset x (Cursor.lt_of_next?_eq_some hnext)
    rw [hread] at hends
    have hbegan := hbegan.of_le (Cursor.le_of_lt hends)
    rw [addAll] at hadd
    split at hadd
    · next fault hrefused =>
      cases hadd
      exact span_from_of_add_eq_error hbegan ⟨c, hends, rfl⟩ rfl hrefused
    · next next hnext => exact ih (hbegan.add ⟨c, hends, rfl⟩ hnext) hadd
  | case3 c x d hnext kept fault hbroken =>
    have hfault := Token.readFrom_faultFrom x (Cursor.lt_of_next?_eq_some hnext)
    rw [hbroken] at hfault
    obtain ⟨e, hlt, hstop⟩ := Span.From.stop_of_start hfault
    cases kept with
    | none => cases hadd
    | some token =>
      change draft.addAll resolver [⟨token, ⟨c.offset, fault.span.stop⟩⟩] = _ at hadd
      rw [addAll] at hadd
      split at hadd
      · next fault hrefused =>
        cases hadd
        exact span_from_of_add_eq_error (hbegan.of_le (Cursor.le_of_lt hlt)) ⟨c, hlt, rfl⟩ hstop
          hrefused
      · cases hadd

/-- Once all tokens of a text are added, what is in the draft began before its end. -/
theorem BeganBefore.addAll (hbegan : draft.BeganBefore c)
    (hfault : (Tokens.readAll c).fault = none)
    (hadd : draft.addAll resolver (Tokens.readAll c).tokens = .ok next) :
    ∃ d : Cursor source, d.AtEnd ∧ next.BeganBefore d := by
  fun_induction Tokens.readAll c generalizing draft with
  | case1 c hnext =>
    cases hadd
    exact ⟨c, Cursor.next?_eq_none_iff.mp hnext, hbegan⟩
  | case2 c x d hnext token e hread rest =>
    rename_i ih
    have hends := Token.readFrom_endsAfter c.offset x (Cursor.lt_of_next?_eq_some hnext)
    rw [hread] at hends
    rw [Draft.addAll] at hadd
    split at hadd
    · cases hadd
    · next next hnext =>
      have hnext := (hbegan.of_le (Cursor.le_of_lt hends)).add ⟨c, hends, rfl⟩ hnext
      exact ih hnext hfault hadd
  | case3 => cases hfault

end Draft

/-- The span of a reference holds at least its backslash. -/
theorem PropertyReference.StandsIn.span_from {reference : PropertyReference}
    (hreference : reference.StandsIn source) : reference.span.From (Cursor.start source) := by
  obtain ⟨met, last, hscans, hmem⟩ := hreference
  obtain ⟨c, d, hle, name, -, -, hahead, hspan⟩ := hscans.exists_writtenBetween hmem
  refine ⟨c, d, hle, ?_, hspan⟩
  obtain ⟨e, hbackslash, he⟩ := Cursor.exists_next?_eq_some hahead
  exact Cursor.lt_of_lt_of_le (Cursor.lt_of_next?_eq_some hbackslash) (Cursor.le_of_ahead_eq he)

namespace Pattern

variable {resolver : Resolver}

/-- The span of an error is a part of the source. -/
theorem span_from_of_compile {fault : PatternError}
    (hcompile : compile resolver source = .error fault) :
    fault.span.From (Cursor.start source) := by
  rw [compile_eq_error_iff] at hcompile
  cases fault with
  | property error =>
    obtain ⟨reference, hstands, hreject⟩ := Node.exists_rejected_of_ofText hcompile
    obtain ⟨-, hspan, -⟩ := Resolver.rejection_kinds hreject
    have hfrom := hstands.span_from
    rwa [hspan] at hfrom
  | malformed error =>
    have hbegan := Draft.beganBefore_empty (Cursor.start source)
    rw [Node.ofText] at hcompile
    split at hcompile
    · next hadd =>
      cases hcompile
      exact Draft.span_from_of_addAll_eq_error hbegan hadd
    · next draft hadd =>
      split at hcompile
      · next hfault =>
        cases hcompile
        exact Tokens.fault_from hfault
      · next hfault =>
        obtain ⟨d, hend, hbegan⟩ := hbegan.addAll hfault hadd
        rw [Draft.finish] at hcompile
        split at hcompile
        · cases hcompile
        · next group rest hopened =>
          cases hcompile
          have hgroup := (hbegan.groups group (by rw [hopened]; exact List.mem_cons_self)).1
          rw [PatternError.span, ← Cursor.atEnd_iff_offset.mp hend]
          exact hgroup.span_from

end Pattern

end EmojiPatterns
