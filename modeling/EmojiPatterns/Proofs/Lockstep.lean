import EmojiPatterns.Proofs.Agreement

/-!
# Compiling in lockstep

Which tokens fit a draft does not depend on what the escapes before them stand for, as long as the
nodes may be repeated.  So two resolvers whose escapes agree compile every source to trees that
agree, or refuse it for the same reason: each token leads from drafts that agree to drafts that
agree.  Main statement: `Pattern.sameResult_compile`.
-/

namespace EmojiPatterns

/-- Two results that are the same error, or values in a relation. -/
inductive SameResult {ε α β : Type} (rel : α → β → Prop) : Except ε α → Except ε β → Prop where
  | error (error : ε) : SameResult rel (.error error) (.error error)
  | ok {left : α} {right : β} (hvalues : rel left right) : SameResult rel (.ok left) (.ok right)

protected theorem SameResult.refl {ε α : Type} {rel : α → α → Prop} (hrel : ∀ a, rel a a)
    (result : Except ε α) : SameResult rel result result := by
  cases result with
  | error error => exact .error error
  | ok a => exact .ok (hrel a)

protected theorem SameResult.map {ε α β γ δ : Type} {rel : α → β → Prop} {image : γ → δ → Prop}
    {f : α → γ} {g : β → δ} {left : Except ε α} {right : Except ε β}
    (hresult : SameResult rel left right) (himage : ∀ a b, rel a b → image (f a) (g b)) :
    SameResult image (left.map f) (right.map g) := by
  cases hresult with
  | error error => exact .error error
  | ok hvalues => exact .ok (himage _ _ hvalues)

/-- Items that begin at the same place and whose nodes agree. -/
structure Item.Agrees (left right : Item) : Prop where
  begin_eq : left.begin = right.begin
  node : left.node.Agrees right.node

/-- Scopes whose branches and items agree one by one. -/
structure Scope.Agrees (left right : Scope) : Prop where
  branches : List.Forall₂ Node.Agrees left.branches right.branches
  items : List.Forall₂ Item.Agrees left.items right.items

namespace Scope.Agrees

variable {left right : Scope}

theorem empty : Scope.empty.Agrees Scope.empty :=
  ⟨.nil, .nil⟩

theorem push {item other : Item} (hscope : left.Agrees right) (hitem : item.Agrees other) :
    (left.push item).Agrees (right.push other) :=
  ⟨hscope.branches, .cons hitem hscope.items⟩

theorem branch (hscope : left.Agrees right) : left.branch.Agrees right.branch := by
  apply Node.Agrees.sequence
  apply List.rel_map fun _ _ hitem => Item.Agrees.node hitem
  exact List.forall₂_reverse_iff.mpr hscope.items

theorem divide (hscope : left.Agrees right) : left.divide.Agrees right.divide :=
  ⟨.cons hscope.branch hscope.branches, .nil⟩

theorem node (hscope : left.Agrees right) : left.node.Agrees right.node := by
  have hbranches := List.forall₂_reverse_iff.mpr hscope.branches
  rw [Scope.node, Scope.node]
  generalize left.branches.reverse = branches, right.branches.reverse = branches' at hbranches ⊢
  cases hbranches with
  | nil => exact hscope.branch
  | cons hfirst hrest =>
    exact Node.Agrees.choice (List.rel_append hrest (.cons hscope.branch .nil)) hfirst

end Scope.Agrees

/-- Groups of one kind that were opened at one place in scopes that agree. -/
structure OpenGroup.Agrees (left right : OpenGroup) : Prop where
  kind_eq : left.kind = right.kind
  begin_eq : left.begin = right.begin
  outer : left.outer.Agrees right.outer

theorem GroupKind.agrees_wrap {left right : Node} (kind : GroupKind) (hnodes : left.Agrees right) :
    (kind.wrap left).Agrees (kind.wrap right) := by
  cases kind with
  | plain => exact hnodes
  | look negated => exact hnodes.look negated

/-- Drafts whose scope and open groups agree. -/
structure Draft.Agrees (left right : Draft) : Prop where
  scope : left.scope.Agrees right.scope
  opened : List.Forall₂ OpenGroup.Agrees left.opened right.opened

/-- Resolvers for which escapes stand for nodes that agree, and in classes for the same. -/
structure Resolver.Agrees (left right : Resolver) : Prop where
  resolve : ∀ reference : PropertyReference,
    SameResult Node.Agrees (Draft.resolve left reference) (Draft.resolve right reference)
  resolveInClass : ∀ reference : PropertyReference,
    Draft.resolveInClass left reference = Draft.resolveInClass right reference

namespace Draft.Agrees

variable {left right : Draft} {resolver other : Resolver}

theorem push (hdraft : left.Agrees right) (begin : Nat) {node node' : Node}
    (hnodes : node.Agrees node') : (left.push begin node).Agrees (right.push begin node') :=
  ⟨hdraft.scope.push ⟨rfl, hnodes⟩, hdraft.opened⟩

theorem quantify (hdraft : left.Agrees right) (quantifier : Quantifier) (span : Span) :
    SameResult Draft.Agrees (left.quantify quantifier span) (right.quantify quantifier span) := by
  obtain ⟨⟨hbranches, hitems⟩, hopened⟩ := hdraft
  rw [Draft.quantify, Draft.quantify]
  generalize left.scope.items = items, right.scope.items = items' at hitems ⊢
  cases hitems with
  | nil => exact .error _
  | cons hitem hrest =>
    simp only [hitem.begin_eq, hitem.node.repeatable_eq]
    split
    · exact .ok ⟨⟨hbranches, .cons ⟨rfl, hitem.node.iterate quantifier⟩ hrest⟩, hopened⟩
    · exact .error _

theorem close (hdraft : left.Agrees right) (span : Span) :
    SameResult Draft.Agrees (left.close span) (right.close span) := by
  obtain ⟨hscope, hopened⟩ := hdraft
  rw [Draft.close, Draft.close]
  generalize left.opened = groups, right.opened = groups' at hopened ⊢
  cases hopened with
  | nil => exact .error _
  | cons hgroup hrest =>
    obtain ⟨hkind, hbegin, houter⟩ := hgroup
    simp only [hkind, hbegin]
    exact .ok ⟨houter.push ⟨rfl, GroupKind.agrees_wrap _ hscope.node⟩, hrest⟩

theorem addItems (hresolver : resolver.Agrees other) (set : CharSet) (items : List ClassItem) :
    Draft.addItems resolver set items = Draft.addItems other set items := by
  induction items generalizing set with
  | nil => rfl
  | cons item rest ih =>
    cases item with
    | range lo hi => exact ih _
    | property reference =>
      rw [Draft.addItems, Draft.addItems, hresolver.resolveInClass]
      cases Draft.resolveInClass other reference with
      | error error => rfl
      | ok holds => exact ih _

/-- A token leads from drafts that agree to drafts that agree. -/
theorem add (hdraft : left.Agrees right) (hresolver : resolver.Agrees other)
    (placed : PlacedToken) :
    SameResult Draft.Agrees (left.add resolver placed) (right.add other placed) := by
  obtain ⟨token, span⟩ := placed
  cases token with
  | char c => exact .ok (hdraft.push span.start (.refl _))
  | anyChar => exact .ok (hdraft.push span.start (.refl _))
  | textStart => exact .ok (hdraft.push span.start (.refl _))
  | textEnd => exact .ok (hdraft.push span.start (.refl _))
  | openGroup kind => exact .ok ⟨.empty, .cons ⟨rfl, rfl, hdraft.scope⟩ hdraft.opened⟩
  | closeGroup => exact hdraft.close span
  | bar => exact .ok ⟨hdraft.scope.divide, hdraft.opened⟩
  | quantifier quantifier => exact hdraft.quantify quantifier span
  | property reference =>
    apply (hresolver.resolve reference).map
    intro node node' hnodes
    exact hdraft.push span.start hnodes
  | set negated items =>
    simp only [Draft.add, addItems hresolver]
    cases Draft.addItems other ⟨negated, .empty, []⟩ items with
    | error error => exact .error error
    | ok set => exact .ok (hdraft.push span.start (.refl _))

theorem addAll (hdraft : left.Agrees right) (hresolver : resolver.Agrees other)
    (tokens : List PlacedToken) :
    SameResult Draft.Agrees (left.addAll resolver tokens) (right.addAll other tokens) := by
  induction tokens generalizing left right with
  | nil => exact .ok hdraft
  | cons token rest ih =>
    have hstep := hdraft.add hresolver token
    rw [Draft.addAll, Draft.addAll]
    generalize left.add resolver token = result, right.add other token = result' at hstep ⊢
    cases hstep with
    | error error => exact .error error
    | ok hnext => exact ih hnext

theorem finish (hdraft : left.Agrees right) (length : Nat) :
    SameResult Node.Agrees (left.finish length) (right.finish length) := by
  obtain ⟨hscope, hopened⟩ := hdraft
  rw [Draft.finish, Draft.finish]
  generalize left.opened = groups, right.opened = groups' at hopened ⊢
  cases hopened with
  | nil => exact .ok hscope.node
  | cons hgroup hrest =>
    simp only [hgroup.begin_eq]
    exact .error _

end Draft.Agrees

theorem Node.sameResult_ofText {left right : Resolver} (hresolver : left.Agrees right)
    (source : List Char) :
    SameResult Node.Agrees (Node.ofText left source) (Node.ofText right source) := by
  have hempty : Draft.empty.Agrees Draft.empty := ⟨.empty, .nil⟩
  have hadded := hempty.addAll hresolver (Tokens.ofText source).tokens
  simp only [Node.ofText]
  generalize Draft.empty.addAll left _ = result, Draft.empty.addAll right _ = result' at hadded ⊢
  cases hadded with
  | error error => exact .error error
  | ok hdraft =>
    cases (Tokens.ofText source).fault with
    | some error => exact .error _
    | none => exact hdraft.finish (utf8Length source)

/-- Under resolvers that agree a source compiles to patterns that no match can tell apart, or is
refused for the same reason. -/
theorem Pattern.sameResult_compile {left right : Resolver} (hresolver : left.Agrees right)
    (source : List Char) :
    SameResult Pattern.Alike (Pattern.compile left source) (Pattern.compile right source) :=
  (Node.sameResult_ofText hresolver source).map fun _ _ hroot => alike_of_agrees hroot

end EmojiPatterns
