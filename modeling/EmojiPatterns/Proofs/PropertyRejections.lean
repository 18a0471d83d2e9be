import EmojiPatterns.Proofs.Stages
import EmojiPatterns.Proofs.TokenReferences

/-!
# Which properties are refused, and where

A pattern is refused for a property only if an escape of its source may not name that property
where it stands, and then the fault tells which escape that is.  A pattern that compiles has no such
escape, and its properties of strings are those that its escapes name.  Main statement:
`Pattern.rejections_are_exact`.
-/

namespace EmojiPatterns

variable {source : List Char}

/-! ### Resolving -/

/-- A property of strings is refused for being negated, by its escape or by the class around it, and
otherwise for standing in a class. -/
theorem PropertyReference.validate_eq_error_iff {reference : PropertyReference}
    {error : PropertyError} :
    reference.validate = .error error ↔
      (error = .negationNotSupported reference.name reference.span ∧
        (reference.negated = true ∨ reference.enclosure = .characterClass true)) ∨
      (error = .notAllowedInClass reference.name reference.span ∧
        reference.negated = false ∧ reference.enclosure = .characterClass false) := by
  obtain ⟨name, negated, enclosure, span⟩ := reference
  cases negated with
  | true => simp [validate, eq_comm]
  | false =>
    cases enclosure with
    | topLevel => simp [validate]
    | characterClass negated => cases negated <;> simp [validate, eq_comm]

namespace Resolver

variable {resolver : Resolver} {reference : PropertyReference} {error : PropertyError}

/-- What a reference to a property of strings stands for. -/
def fragment? (resolver : Resolver) (reference : PropertyReference) : Option Fragment :=
  (resolver.table.lookup? reference.name).map fun set => set.fragment resolver.merge

/-- A reference that may stand where it stands. -/
def Accepts (resolver : Resolver) (reference : PropertyReference) : Prop :=
  ∀ error, resolver.resolveOrReject reference ≠ .error error

theorem resolveOrReject_eq_error_iff :
    resolver.resolveOrReject reference = .error error ↔
      ((resolver.table.lookup? reference.name).isSome ∧ reference.validate = .error error) ∨
        (resolver.table.lookup? reference.name = none ∧
          resolver.charProperty? reference.name = none ∧
          error = .unknown reference.name reference.span) := by
  rw [resolveOrReject, resolve]
  cases resolver.table.lookup? reference.name with
  | none =>
    cases resolver.charProperty? reference.name with
    | none => simp [eq_comm]
    | some holds => simp
  | some set =>
    cases reference.validate with
    | error error => simp
    | ok _ => simp

/-- The kind of a rejection tells what is wrong with the reference. -/
theorem rejection_kinds (hreject : resolver.resolveOrReject reference = .error error) :
    reference.name = error.name ∧ reference.span = error.span ∧
      (error = .negationNotSupported error.name error.span ↔
        (resolver.table.lookup? error.name).isSome ∧
          (reference.negated = true ∨ reference.enclosure = .characterClass true)) ∧
      (error = .notAllowedInClass error.name error.span ↔
        (resolver.table.lookup? error.name).isSome ∧
          reference.negated = false ∧ reference.enclosure = .characterClass false) ∧
      (error = .unknown error.name error.span ↔
        resolver.table.lookup? error.name = none ∧ resolver.charProperty? error.name = none) := by
  rcases resolveOrReject_eq_error_iff.mp hreject with ⟨hknown, hvalid⟩ | ⟨hnone, hunknown, rfl⟩
  · have hsome : resolver.table.lookup? reference.name ≠ none := Option.isSome_iff_ne_none.mp hknown
    rcases PropertyReference.validate_eq_error_iff.mp hvalid with ⟨rfl, hwhy⟩ | ⟨rfl, hwhy⟩
    · have hother : ¬(reference.negated = false ∧ reference.enclosure = .characterClass false) := by
        rintro ⟨hnegated, henclosure⟩
        simp [hnegated, henclosure] at hwhy
      simp [PropertyError.name, PropertyError.span, hknown, hsome, hwhy, hother]
    · simp [PropertyError.name, PropertyError.span, hknown, hsome, hwhy]
  · simp [PropertyError.name, PropertyError.span, hnone, hunknown]

/-- If the table has a set of an accepted name, then the reference is not negated and stands outside
of classes. -/
theorem Accepts.negated_and_enclosure (haccepts : resolver.Accepts reference)
    (hknown : (resolver.table.lookup? reference.name).isSome) :
    reference.negated = false ∧ reference.enclosure = .topLevel := by
  rw [← PropertyReference.validate_eq_ok_iff]
  cases hvalid : reference.validate with
  | error error =>
    exact absurd (resolveOrReject_eq_error_iff.mpr (.inl ⟨hknown, hvalid⟩)) (haccepts error)
  | ok _ => rfl

/-- No reference in a class turns out to be a property of strings that may stand there. -/
theorem resolve_ne_strings (hclass : reference.enclosure ≠ .topLevel) (name : String)
    (fragment : Fragment) : resolver.resolve reference ≠ .ok (.strings name fragment) := by
  intro hresolve
  rw [resolve] at hresolve
  split at hresolve
  · split at hresolve
    · cases hresolve
    · next hvalid => exact hclass (PropertyReference.validate_eq_ok_iff.mp hvalid).2
  · split at hresolve
    · cases hresolve
    · cases hresolve

theorem fragment?_of_resolve {name : String} {fragment : Fragment}
    (hresolve : resolver.resolve reference = .ok (.strings name fragment)) :
    resolver.fragment? reference = some fragment := by
  rw [resolve] at hresolve
  rw [fragment?]
  split at hresolve
  · next set hset =>
    split at hresolve
    · cases hresolve
    · cases hresolve
      rw [hset]
      rfl
  · split at hresolve
    · cases hresolve
    · cases hresolve

theorem fragment?_eq_none_of_resolve {name : String} {holds : Char → Bool}
    (hresolve : resolver.resolve reference = .ok (.chars name holds)) :
    resolver.fragment? reference = none := by
  rw [resolve] at hresolve
  rw [fragment?]
  split at hresolve
  · split at hresolve
    · cases hresolve
    · cases hresolve
  · next hnone =>
    rw [hnone]
    rfl

end Resolver

/-! ### Properties of strings in trees and drafts -/

/-- The properties of strings in a tree, from left to right. -/
def Node.fragments : Node → List Fragment
  | strings fragment => [fragment]
  | seq first second | alt first second => first.fragments ++ second.fragments
  | iterate body _ | look body _ => body.fragments
  | empty | char _ | anyChar | set _ | textStart | textEnd => []

theorem Node.fragments_sequence (nodes : List Node) :
    (sequence nodes).fragments = nodes.flatMap fragments := by
  induction nodes with
  | nil => rfl
  | cons node rest ih =>
    cases rest with
    | nil => simp [sequence]
    | cons second rest =>
      rw [sequence, fragments, ih]
      · rfl
      · exact nofun

theorem Node.fragments_choice (first : Node) (rest : List Node) :
    (choice first rest).fragments = first.fragments ++ rest.flatMap fragments := by
  induction rest generalizing first with
  | nil => simp [choice]
  | cons second rest ih => rw [choice, fragments, ih, List.flatMap_cons]

def Scope.fragments (scope : Scope) : List Fragment :=
  scope.branches.reverse.flatMap Node.fragments ++
    scope.items.reverse.flatMap fun item => item.node.fragments

namespace Scope

@[simp]
theorem fragments_empty : empty.fragments = [] := rfl

@[simp]
theorem fragments_push (scope : Scope) (item : Item) :
    (scope.push item).fragments = scope.fragments ++ item.node.fragments := by
  simp [fragments, push]

theorem fragments_branch (scope : Scope) :
    scope.branch.fragments = scope.items.reverse.flatMap fun item => item.node.fragments := by
  rw [branch, Node.fragments_sequence, List.flatMap_map]

@[simp]
theorem fragments_divide (scope : Scope) : scope.divide.fragments = scope.fragments := by
  simp [fragments, divide, fragments_branch]

@[simp]
theorem fragments_node (scope : Scope) : scope.node.fragments = scope.fragments := by
  rw [node, fragments]
  split
  · next hnil => rw [hnil, fragments_branch, List.flatMap_nil, List.nil_append]
  · next first rest hcons => simp [hcons, Node.fragments_choice, fragments_branch]

end Scope

theorem GroupKind.fragments_wrap (kind : GroupKind) (node : Node) :
    (kind.wrap node).fragments = node.fragments := by
  cases kind with
  | plain => rfl
  | look negated => rfl

namespace Draft

def fragments (draft : Draft) : List Fragment :=
  draft.opened.reverse.flatMap (fun group => group.outer.fragments) ++ draft.scope.fragments

variable {resolver : Resolver} {draft next : Draft} {reference : PropertyReference}

@[simp]
theorem fragments_push (draft : Draft) (begin : Nat) (node : Node) :
    (draft.push begin node).fragments = draft.fragments ++ node.fragments := by
  simp [fragments, push]

/-- Outside of classes a reference is refused if resolving rejects it. -/
theorem resolve_eq_error_iff {fault : PatternError} :
    resolve resolver reference = .error fault ↔
      ∃ error, resolver.resolveOrReject reference = .error error ∧ fault = .property error := by
  rw [resolve, Resolver.resolveOrReject]
  cases resolver.resolve reference with
  | error error => simp [eq_comm]
  | ok resolved => cases resolved <;> simp [eq_comm]

/-- In classes a reference is refused if resolving rejects it. -/
theorem resolveInClass_eq_error_iff (hclass : reference.enclosure ≠ .topLevel)
    {fault : PatternError} :
    resolveInClass resolver reference = .error fault ↔
      ∃ error, resolver.resolveOrReject reference = .error error ∧ fault = .property error := by
  have hstrings := resolver.resolve_ne_strings hclass
  rw [resolveInClass, Resolver.resolveOrReject]
  cases hresolve : resolver.resolve reference with
  | error error => simp [eq_comm]
  | ok resolved =>
    cases resolved with
    | strings name fragment => exact absurd hresolve (hstrings name fragment)
    | chars | unknown => simp [eq_comm]

theorem accepts_of_resolve {node : Node} (hresolve : resolve resolver reference = .ok node) :
    resolver.Accepts reference ∧ node.fragments = (resolver.fragment? reference).toList := by
  constructor
  · intro error hreject
    have hfault := resolve_eq_error_iff.mpr ⟨error, hreject, rfl⟩
    rw [hresolve] at hfault
    cases hfault
  · rcases resolve_eq_ok_iff_names.mp hresolve with
      ⟨name, fragment, hname, rfl⟩ | ⟨name, holds, hname, rfl⟩
    · rw [Resolver.fragment?_of_resolve hname]
      rfl
    · rw [Resolver.fragment?_eq_none_of_resolve hname]
      rfl

theorem accepts_of_resolveInClass (hclass : reference.enclosure ≠ .topLevel) {test : Char → Bool}
    (hresolve : resolveInClass resolver reference = .ok test) :
    resolver.Accepts reference ∧ resolver.fragment? reference = none := by
  constructor
  · intro error hreject
    have hfault := (resolveInClass_eq_error_iff hclass).mpr ⟨error, hreject, rfl⟩
    rw [hresolve] at hfault
    cases hfault
  · obtain ⟨name, holds, hname, -⟩ := resolveInClass_eq_ok_iff.mp hresolve
    exact Resolver.fragment?_eq_none_of_resolve hname

variable {items : List ClassItem} {set out : CharSet} {fault : PatternError}

/-- A class is refused for one of its references. -/
theorem addItems_eq_error
    (hclass : ∀ reference ∈ items.flatMap ClassItem.references, reference.enclosure ≠ .topLevel)
    (hadd : addItems resolver set items = .error fault) :
    ∃ reference ∈ items.flatMap ClassItem.references, ∃ error,
      resolver.resolveOrReject reference = .error error ∧ fault = .property error := by
  fun_induction addItems resolver set items with
  | case1 => cases hadd
  | case2 set lo hi rest ih => exact ih hclass hadd
  | case3 set reference rest fault' hrefused =>
    cases hadd
    have hmem : reference ∈ (ClassItem.property reference :: rest).flatMap ClassItem.references :=
      List.mem_cons_self
    exact ⟨reference, hmem, (resolveInClass_eq_error_iff (hclass reference hmem)).mp hrefused⟩
  | case4 set reference rest test htest ih =>
    rw [List.flatMap_cons, List.forall_mem_append] at hclass
    obtain ⟨other, hmem, hrefused⟩ := ih hclass.2 hadd
    exact ⟨other, List.mem_append_right _ hmem, hrefused⟩

/-- A class that is taken has only references to properties of characters. -/
theorem addItems_eq_ok
    (hclass : ∀ reference ∈ items.flatMap ClassItem.references, reference.enclosure ≠ .topLevel)
    (hadd : addItems resolver set items = .ok out) :
    ∀ reference ∈ items.flatMap ClassItem.references,
      resolver.Accepts reference ∧ resolver.fragment? reference = none := by
  fun_induction addItems resolver set items with
  | case1 => exact List.forall_mem_nil _
  | case2 set lo hi rest ih => exact ih hclass hadd
  | case3 => cases hadd
  | case4 set reference rest test htest ih =>
    rw [List.flatMap_cons, List.forall_mem_append] at hclass ⊢
    refine ⟨?_, ih hclass.2 hadd⟩
    intro other hmem
    rw [List.mem_singleton.mp hmem]
    exact accepts_of_resolveInClass (hclass.1 reference List.mem_cons_self) htest

variable {placed : PlacedToken} {tokens : List PlacedToken}

/-- A token is refused for a property only if resolving rejects one of its references. -/
theorem add_eq_property_error {error : PropertyError} (henclosed : placed.token.Enclosed)
    (hadd : draft.add resolver placed = .error (.property error)) :
    ∃ reference ∈ placed.token.references, resolver.resolveOrReject reference = .error error := by
  obtain ⟨token, span⟩ := placed
  cases token with
  | char | anyChar | textStart | textEnd | openGroup | bar => cases hadd
  | closeGroup => cases (close_eq_error_iff.mp hadd).2
  | quantifier quantifier =>
    rcases quantify_eq_error_iff.mp hadd with ⟨-, hfault⟩ | ⟨item, rest, -, -, hfault⟩
    · cases hfault
    · cases hfault
  | property reference =>
    obtain ⟨error, hreject, heq⟩ := resolve_eq_error_iff.mp (add_property_eq_error_iff.mp hadd)
    cases heq
    exact ⟨reference, List.mem_cons_self, hreject⟩
  | set negated items =>
    obtain ⟨reference, hmem, error, hreject, heq⟩ :=
      addItems_eq_error henclosed.ne_topLevel (add_set_eq_error_iff.mp hadd)
    cases heq
    exact ⟨reference, hmem, hreject⟩

/-- A token that is taken has no reference that is rejected, and puts its properties of strings into
the draft. -/
theorem add_eq_ok (henclosed : placed.token.Enclosed)
    (hadd : draft.add resolver placed = .ok next) :
    (∀ reference ∈ placed.token.references, resolver.Accepts reference) ∧
      next.fragments =
        draft.fragments ++ placed.token.references.filterMap resolver.fragment? := by
  obtain ⟨token, span⟩ := placed
  cases token with
  | char | anyChar | textStart | textEnd =>
    cases hadd
    exact ⟨List.forall_mem_nil _, fragments_push _ _ _⟩
  | openGroup kind =>
    cases hadd
    refine ⟨List.forall_mem_nil _, ?_⟩
    simp [fragments, Token.references]
  | bar =>
    cases hadd
    refine ⟨List.forall_mem_nil _, ?_⟩
    simp [fragments, Token.references]
  | closeGroup =>
    obtain ⟨group, rest, hopened, rfl⟩ := close_eq_ok_iff.mp hadd
    refine ⟨List.forall_mem_nil _, ?_⟩
    simp [fragments, hopened, GroupKind.fragments_wrap, Token.references]
  | quantifier quantifier =>
    obtain ⟨item, rest, hitems, -, rfl⟩ := quantify_eq_ok_iff.mp hadd
    refine ⟨List.forall_mem_nil _, ?_⟩
    simp [fragments, Scope.fragments, hitems, Node.fragments, Token.references]
  | property reference =>
    obtain ⟨node, hresolve, rfl⟩ := add_property_eq_ok_iff.mp hadd
    obtain ⟨haccepts, hfragments⟩ := accepts_of_resolve hresolve
    refine ⟨by simpa [Token.references] using haccepts, ?_⟩
    rw [fragments_push, hfragments, Token.references, List.filterMap_cons]
    cases resolver.fragment? reference with
    | none => rfl
    | some fragment => rfl
  | set negated items =>
    obtain ⟨out, hitems, rfl⟩ := add_set_eq_ok_iff.mp hadd
    have htaken := addItems_eq_ok henclosed.ne_topLevel hitems
    refine ⟨fun reference hmem => (htaken reference hmem).1, ?_⟩
    have hnone : (items.flatMap ClassItem.references).filterMap resolver.fragment? = [] :=
      List.filterMap_eq_nil_iff.mpr fun reference hmem => (htaken reference hmem).2
    rw [fragments_push, Token.references, hnone]
    rfl

theorem addAll_eq_property_error {error : PropertyError}
    (henclosed : ∀ placed ∈ tokens, placed.token.Enclosed)
    (hadd : draft.addAll resolver tokens = .error (.property error)) :
    ∃ reference ∈ tokens.flatMap fun placed => placed.token.references,
      resolver.resolveOrReject reference = .error error := by
  fun_induction addAll resolver draft tokens with
  | case1 => cases hadd
  | case2 draft placed rest fault hrefused =>
    cases hadd
    obtain ⟨reference, hmem, hreject⟩ :=
      add_eq_property_error (henclosed placed List.mem_cons_self) hrefused
    exact ⟨reference, List.mem_append_left _ hmem, hreject⟩
  | case3 draft placed rest next hnext ih =>
    obtain ⟨reference, hmem, hreject⟩ :=
      ih (fun other hmem => henclosed other (List.mem_cons_of_mem _ hmem)) hadd
    exact ⟨reference, List.mem_append_right _ hmem, hreject⟩

theorem addAll_eq_ok (henclosed : ∀ placed ∈ tokens, placed.token.Enclosed)
    (hadd : draft.addAll resolver tokens = .ok next) :
    (∀ reference ∈ tokens.flatMap fun placed => placed.token.references,
        resolver.Accepts reference) ∧
      next.fragments = draft.fragments ++
        (tokens.flatMap fun placed => placed.token.references).filterMap resolver.fragment? := by
  fun_induction addAll resolver draft tokens with
  | case1 draft =>
    cases hadd
    exact ⟨List.forall_mem_nil _, (List.append_nil _).symm⟩
  | case2 => cases hadd
  | case3 draft placed rest middle hmiddle ih =>
    obtain ⟨haccepts, hfragments⟩ := add_eq_ok (henclosed placed List.mem_cons_self) hmiddle
    obtain ⟨hrest, hnext⟩ :=
      ih (fun other hmem => henclosed other (List.mem_cons_of_mem _ hmem)) hadd
    rw [List.flatMap_cons, List.forall_mem_append, List.filterMap_append]
    refine ⟨⟨haccepts, hrest⟩, ?_⟩
    rw [hnext, hfragments, List.append_assoc]

end Draft

/-! ### Patterns -/

/-- The text of a source between the ends of a span, which lie between characters. -/
def Span.Covers (span : Span) (source word : List Char) : Prop :=
  ∃ behind ahead, source = behind ++ (word ++ ahead) ∧
    span = ⟨utf8Length behind, utf8Length behind + utf8Length word⟩

/-- The span of a reference covers its escape. -/
theorem PropertyReference.StandsIn.covers {reference : PropertyReference}
    (hreference : reference.StandsIn source) :
    reference.span.Covers source
      ('\\' :: Escape.ofName reference.negated reference.name.toList) := by
  obtain ⟨met, last, hscans, hmem⟩ := hreference
  obtain ⟨c, d, -, name, -, hname, hahead, hspan⟩ := hscans.exists_writtenBetween hmem
  obtain ⟨behind, hsource, hoffset⟩ := c.split
  rw [← List.cons_append] at hahead
  have hstop := Cursor.offset_eq_of_ahead_eq hahead
  rw [hname, String.toList_ofList, hspan, hstop, ← hoffset]
  exact ⟨behind, d.ahead, by rw [← hahead, hsource], rfl⟩

theorem Tokens.standsIn_of_mem {reference : PropertyReference}
    (hmem : reference ∈ (ofText source).references) : reference.StandsIn source := by
  obtain ⟨last, hscans, -⟩ := scans_readAll (Cursor.start source)
  exact ⟨_, last, hscans, hmem⟩

theorem Tokens.allStandIn (hfault : (ofText source).fault = none) :
    PropertyReference.AllStandIn source (ofText source).references := by
  obtain ⟨last, hscans, hend⟩ := scans_readAll (Cursor.start source)
  exact ⟨last, hscans, (hend hfault).1⟩

namespace Node

variable {resolver : Resolver}

/-- A source is refused for a property only if resolving rejects a reference that stands in it. -/
theorem exists_rejected_of_ofText {error : PropertyError}
    (hnode : ofText resolver source = .error (.property error)) :
    ∃ reference, reference.StandsIn source ∧
      resolver.resolveOrReject reference = .error error := by
  have henclosed : ∀ placed ∈ (Tokens.ofText source).tokens, placed.token.Enclosed :=
    fun _ => Tokens.enclosed_of_mem_readAll
  rw [ofText] at hnode
  split at hnode
  · next fault hadd =>
    cases hnode
    obtain ⟨reference, hmem, hreject⟩ := Draft.addAll_eq_property_error henclosed hadd
    exact ⟨reference, Tokens.standsIn_of_mem hmem, hreject⟩
  · next draft hadd =>
    split at hnode
    · cases hnode
    · rw [Draft.finish] at hnode
      split at hnode
      · cases hnode
      · cases hnode

/-- If a source has a tree, then no reference that stands in it is rejected, and the properties of
strings in the tree are those that are named. -/
theorem exists_allStandIn_of_ofText {node : Node} (hnode : ofText resolver source = .ok node) :
    ∃ references, PropertyReference.AllStandIn source references ∧
      (∀ reference ∈ references, resolver.Accepts reference) ∧
      node.fragments = references.filterMap resolver.fragment? := by
  have henclosed : ∀ placed ∈ (Tokens.ofText source).tokens, placed.token.Enclosed :=
    fun _ => Tokens.enclosed_of_mem_readAll
  rw [ofText] at hnode
  split at hnode
  · cases hnode
  · next draft hadd =>
    split at hnode
    · cases hnode
    · next hfault =>
      obtain ⟨haccepts, hfragments⟩ := Draft.addAll_eq_ok henclosed hadd
      refine ⟨_, Tokens.allStandIn hfault, haccepts, ?_⟩
      rw [Draft.finish] at hnode
      split at hnode
      · next hopened =>
        cases hnode
        rw [Scope.fragments_node]
        rw [Draft.fragments, hopened] at hfragments
        exact hfragments
      · cases hnode

end Node

namespace Pattern

/-- A source is refused for a property only where an escape of that property stands, and the kind of
the fault tells what is wrong there.  If a source compiles, then no escape in a class and none that
is negated names a property of strings, and the properties of strings in the pattern are those that
the escapes name, in their order. -/
theorem rejections_are_exact (resolver : Resolver) (source : List Char) :
    (∀ error, compile resolver source = .error (.property error) →
      ∃ reference : PropertyReference, reference.StandsIn source ∧
        (∀ other : PropertyReference, other.StandsIn source → other.span = error.span →
          other = reference) ∧
        reference.name = error.name ∧ reference.span = error.span ∧
        error.span.Covers source ('\\' :: Escape.ofName reference.negated error.name.toList) ∧
        (error = .negationNotSupported error.name error.span ↔
          (resolver.table.lookup? error.name).isSome ∧
            (reference.negated = true ∨ reference.enclosure = .characterClass true)) ∧
        (error = .notAllowedInClass error.name error.span ↔
          (resolver.table.lookup? error.name).isSome ∧
            reference.negated = false ∧ reference.enclosure = .characterClass false) ∧
        (error = .unknown error.name error.span ↔
          resolver.table.lookup? error.name = none ∧
            resolver.charProperty? error.name = none)) ∧
    ∀ pattern, compile resolver source = .ok pattern →
      ∃ references, PropertyReference.AllStandIn source references ∧
        (∀ reference : PropertyReference, reference.StandsIn source →
          (resolver.table.lookup? reference.name).isSome →
            reference.negated = false ∧ reference.enclosure = .topLevel) ∧
        pattern.root.fragments = references.filterMap resolver.fragment? := by
  constructor
  · intro error hcompile
    rw [compile_eq_error_iff] at hcompile
    obtain ⟨reference, hstands, hreject⟩ := Node.exists_rejected_of_ofText hcompile
    obtain ⟨hname, hspan, hkinds⟩ := Resolver.rejection_kinds hreject
    have hcovers := hstands.covers
    rw [hname, hspan] at hcovers
    refine ⟨reference, hstands, ?_, hname, hspan, hcovers, hkinds⟩
    intro other hother heq
    exact hother.eq_of_span_eq hstands (heq.trans hspan.symm)
  · intro pattern hcompile
    obtain ⟨-, hnode⟩ := compile_eq_ok_iff_ofText.mp hcompile
    obtain ⟨references, hall, haccepts, hfragments⟩ := Node.exists_allStandIn_of_ofText hnode
    refine ⟨references, hall, ?_, hfragments⟩
    intro reference hstands
    exact (haccepts reference (hstands.mem_of_allStandIn hall)).negated_and_enclosure

theorem rejections_are_exact_unknown :
    compile ⟨Table.empty .pinned, fun _ => none, true⟩ (PropertyReference.escape "Any") =
        .error (.property (.unknown "Any" ⟨0, 7⟩)) ∧
      ∃ reference : PropertyReference, reference.StandsIn (PropertyReference.escape "Any") ∧
        reference.name = "Any" ∧ reference.span = ⟨0, 7⟩ := by
  have hfails :
      compile ⟨Table.empty .pinned, fun _ => none, true⟩ (PropertyReference.escape "Any") =
        .error (.property (.unknown "Any" ⟨0, 7⟩)) := by
    rw [compile_escape _ (by decide) (by decide)]
    rfl
  obtain ⟨reference, hstands, -, hname, hspan, -⟩ := (rejections_are_exact _ _).1 _ hfails
  exact ⟨hfails, reference, hstands, hname, hspan⟩

end Pattern

end EmojiPatterns
