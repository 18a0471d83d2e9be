import EmojiPatterns.Proofs.Spelling
import EmojiPatterns.Pattern
import Mathlib.Logic.Relation

/-!
# Compiling as a walk

Compiling goes through a source from left to right.  A stage of it is a place in the source and the
draft of what stands before that place, and an advance reads one token and adds it.  Main
statements: compiling comes to the same from all stages of a walk (`Stage.Reaches.result_eq`), and a
source compiles exactly if a walk from its start comes to its end with no group left open
(`Node.ofText_eq_ok_iff`).
-/

namespace EmojiPatterns

variable {source : List Char}

/-- A place in a source and the draft of what stands before it. -/
structure Stage (source : List Char) where
  place : Cursor source
  draft : Draft

namespace Stage

variable {resolver : Resolver}

/-- One token is read and fits. -/
def Advance (resolver : Resolver) (stage next : Stage source) : Prop :=
  ∃ x d token, stage.place.next? = some (x, d) ∧
    Token.readFrom stage.place.offset x d = .read token next.place ∧
    stage.draft.add resolver ⟨token, ⟨stage.place.offset, next.place.offset⟩⟩ = .ok next.draft

/-- Any number of tokens are read and fit. -/
def Reaches (resolver : Resolver) : Stage source → Stage source → Prop :=
  Relation.ReflTransGen (Advance resolver)

/-- The tokens of a walk to the end are all tokens ahead, and they lead to the draft of its end. -/
theorem Reaches.addAll_eq {stage last : Stage source} (hreaches : stage.Reaches resolver last)
    (hend : last.place.AtEnd) :
    (Tokens.readAll stage.place).fault = none ∧
      stage.draft.addAll resolver (Tokens.readAll stage.place).tokens = .ok last.draft := by
  induction hreaches using Relation.ReflTransGen.head_induction_on with
  | refl =>
    rw [Tokens.readAll_eq_of_atEnd hend]
    exact ⟨rfl, rfl⟩
  | head hadvance _ ih =>
    obtain ⟨x, d, token, hnext, hread, hadd⟩ := hadvance
    rw [Tokens.readAll_eq_of_read hnext hread]
    refine ⟨ih.1, ?_⟩
    simp only [Draft.addAll, hadd]
    exact ih.2

/-- If all tokens ahead can be read and fit, they make a walk to the end. -/
theorem exists_reaches_of_addAll_eq {c : Cursor source} {draft out : Draft}
    (hfault : (Tokens.readAll c).fault = none)
    (hadd : draft.addAll resolver (Tokens.readAll c).tokens = .ok out) :
    ∃ d : Cursor source, d.AtEnd ∧ Reaches resolver ⟨c, draft⟩ ⟨d, out⟩ := by
  fun_induction Tokens.readAll c generalizing draft with
  | case1 c hnext =>
    cases hadd
    exact ⟨c, Cursor.next?_eq_none_iff.mp hnext, .refl⟩
  | case2 c x d hnext token e hread rest =>
    rename_i ih
    rw [Draft.addAll] at hadd
    split at hadd
    · cases hadd
    · next next hstep =>
      obtain ⟨f, hend, hreaches⟩ := ih hfault hadd
      exact ⟨f, hend, hreaches.head ⟨x, d, token, hnext, hread, hstep⟩⟩
  | case3 => cases hfault

/-! ### What is still to come -/

section Result

variable {c d e : Cursor source} {draft : Draft} {x : Char}

/-- What compiling comes to from a stage on. -/
def result (resolver : Resolver) (stage : Stage source) : Except PatternError Node :=
  match stage.draft.addAll resolver (Tokens.readAll stage.place).tokens with
  | .error error => .error error
  | .ok draft =>
    match (Tokens.readAll stage.place).fault with
    | some error => .error (.malformed error)
    | none => draft.finish (utf8Length source)

theorem result_of_atEnd (hend : c.next? = none) :
    result resolver ⟨c, draft⟩ = draft.finish (utf8Length source) := by
  rw [result, Tokens.readAll_eq_of_atEnd (Cursor.next?_eq_none_iff.mp hend)]
  rfl

theorem result_of_read {token : Token} (hnext : c.next? = some (x, d))
    (hread : Token.readFrom c.offset x d = .read token e) :
    result resolver ⟨c, draft⟩ =
      match draft.add resolver ⟨token, ⟨c.offset, e.offset⟩⟩ with
      | .error error => .error error
      | .ok next => result resolver ⟨e, next⟩ := by
  rw [result, Tokens.readAll_eq_of_read hnext hread, Draft.addAll]
  cases draft.add resolver ⟨token, ⟨c.offset, e.offset⟩⟩ with
  | error error => rfl
  | ok next => rfl

theorem readAll_eq_of_broken {kept : Option Token} {error : SyntaxError}
    (hnext : c.next? = some (x, d)) (hread : Token.readFrom c.offset x d = .broken kept error) :
    Tokens.readAll c =
      ⟨kept.toList.map fun token => ⟨token, ⟨c.offset, error.span.stop⟩⟩, some error⟩ := by
  rw [Tokens.readAll]
  split
  · next hnone => simp [hnone] at hnext
  · next hsome =>
    rw [hsome] at hnext
    cases hnext
    split
    · next hsame => simp [hsame] at hread
    · next hbroken =>
      rw [hbroken] at hread
      cases hread
      rfl

theorem result_of_broken {kept : Option Token} {error : SyntaxError}
    (hnext : c.next? = some (x, d)) (hread : Token.readFrom c.offset x d = .broken kept error) :
    result resolver ⟨c, draft⟩ =
      match draft.addAll resolver
          (kept.toList.map fun token => ⟨token, ⟨c.offset, error.span.stop⟩⟩) with
      | .error refused => .error refused
      | .ok _ => .error (.malformed error) := by
  rw [result, readAll_eq_of_broken hnext hread]

/-- Compiling comes to the same from all stages of a walk. -/
theorem Reaches.result_eq {stage last : Stage source} (hreaches : stage.Reaches resolver last) :
    stage.result resolver = last.result resolver := by
  induction hreaches with
  | refl => rfl
  | tail _ hadvance ih =>
    obtain ⟨x, d, token, hnext, hread, hadd⟩ := hadvance
    rw [ih, result_of_read hnext hread, hadd]

end Result

end Stage

theorem Node.ofText_eq_result (resolver : Resolver) (source : List Char) :
    Node.ofText resolver source = Stage.result resolver ⟨Cursor.start source, .empty⟩ :=
  rfl

/-- A source compiles to a tree if a walk through it leaves no group open and ends with that
tree. -/
theorem Node.ofText_eq_ok_iff {resolver : Resolver} {node : Node} :
    Node.ofText resolver source = .ok node ↔
      ∃ last : Stage source, Stage.Reaches resolver ⟨Cursor.start source, .empty⟩ last ∧
        last.place.AtEnd ∧ last.draft.opened = [] ∧ last.draft.scope.node = node := by
  rw [Node.ofText, Tokens.ofText]
  constructor
  · intro hnode
    split at hnode
    · cases hnode
    · next draft hadd =>
      split at hnode
      · cases hnode
      · next hfault =>
        obtain ⟨d, hend, hreaches⟩ := Stage.exists_reaches_of_addAll_eq hfault hadd
        rw [Draft.finish] at hnode
        split at hnode
        · next hopened =>
          cases hnode
          exact ⟨⟨d, draft⟩, hreaches, hend, hopened, rfl⟩
        · cases hnode
  · intro hwalk
    obtain ⟨last, hreaches, hend, hopened, hnode⟩ := hwalk
    obtain ⟨hfault, hadd⟩ := hreaches.addAll_eq hend
    simp only [hadd, hfault, Draft.finish, hopened, hnode]

/-- A pattern is its source and the tree of it. -/
theorem Pattern.compile_eq_ok_iff_ofText {resolver : Resolver} {pattern : Pattern} :
    compile resolver source = .ok pattern ↔
      pattern.source = source ∧ Node.ofText resolver source = .ok pattern.root := by
  rw [compile]
  obtain ⟨text, root⟩ := pattern
  cases Node.ofText resolver source with
  | error error => simp [Except.map]
  | ok node =>
    simp only [Except.map, Except.ok.injEq, mk.injEq]
    rw [eq_comm]

theorem Pattern.compile_eq_error_iff {resolver : Resolver} {fault : PatternError} :
    compile resolver source = .error fault ↔ Node.ofText resolver source = .error fault := by
  rw [compile]
  cases Node.ofText resolver source with
  | error error => simp [Except.map]
  | ok node => simp [Except.map]

end EmojiPatterns
