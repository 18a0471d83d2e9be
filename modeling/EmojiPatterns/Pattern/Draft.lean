import EmojiPatterns.Pattern.Node
import EmojiPatterns.Resolver

/-!
# From tokens to trees

The tokens of a pattern are added one after another to a `Draft`, which holds the branches read so
far of every group that is still open.  Adding a token looks only at the draft and the token, so a
pattern that stands inside a larger one is read in the same way.
-/

namespace EmojiPatterns

/-- A node and the place in the source where it begins. -/
structure Item where
  begin : Nat
  node : Node

/-- The branches of a group as far as they are read. -/
structure Scope where
  /-- The branches before the last bar, the latest first. -/
  branches : List Node
  /-- The items of the branch that is being read, the latest first. -/
  items : List Item

namespace Scope

def empty : Scope :=
  ⟨[], []⟩

def push (scope : Scope) (item : Item) : Scope :=
  { scope with items := item :: scope.items }

/-- The branch that is being read. -/
def branch (scope : Scope) : Node :=
  Node.sequence (scope.items.reverse.map (·.node))

/-- Ends the branch that is being read. -/
def divide (scope : Scope) : Scope :=
  ⟨scope.branch :: scope.branches, []⟩

/-- The choice among all branches. -/
def node (scope : Scope) : Node :=
  match scope.branches.reverse with
  | [] => scope.branch
  | first :: rest => Node.choice first (rest ++ [scope.branch])

end Scope

/-- A group that is not closed yet, and the scope that it stands in. -/
structure OpenGroup where
  kind : GroupKind
  begin : Nat
  outer : Scope

/-- What a closed group stands for. -/
def GroupKind.wrap : GroupKind → Node → Node
  | .plain, node => node
  | .look negated, node => .look node negated

/-- A tree in the making. -/
structure Draft where
  scope : Scope
  /-- The open groups, the innermost first. -/
  opened : List OpenGroup

namespace Draft

def empty : Draft :=
  ⟨.empty, []⟩

def push (draft : Draft) (begin : Nat) (node : Node) : Draft :=
  { draft with scope := draft.scope.push ⟨begin, node⟩ }

/-- What an escape outside of classes stands for. -/
def resolve (resolver : Resolver) (reference : PropertyReference) : Except PatternError Node :=
  match resolver.resolve reference with
  | .error error => .error (.property error)
  | .ok (.strings _ fragment) => .ok (.strings fragment)
  | .ok (.chars _ holds) => .ok (.set ⟨false, .empty, [fun c => holds c != reference.negated]⟩)
  | .ok (.unknown name) => .error (.property (.unknown name reference.span))

/-- The characters that an escape in a class stands for. -/
def resolveInClass (resolver : Resolver) (reference : PropertyReference) :
    Except PatternError (Char → Bool) :=
  match resolver.resolve reference with
  | .error error => .error (.property error)
  | .ok (.strings name _) => .error (.property (.notAllowedInClass name reference.span))
  | .ok (.chars _ holds) => .ok fun c => holds c != reference.negated
  | .ok (.unknown name) => .error (.property (.unknown name reference.span))

/-- Adds the items of a class to a set of characters. -/
def addItems (resolver : Resolver) (set : CharSet) : List ClassItem → Except PatternError CharSet
  | [] => .ok set
  | .range lo hi :: rest =>
    addItems resolver { set with chars := set.chars.insert ⟨lo, hi⟩ } rest
  | .property reference :: rest =>
    match resolveInClass resolver reference with
    | .error error => .error error
    | .ok holds =>
      addItems resolver { set with properties := set.properties ++ [holds] } rest

/-- Repeats the item before a quantifier. -/
def quantify (draft : Draft) (quantifier : Quantifier) (span : Span) :
    Except PatternError Draft :=
  match draft.scope.items with
  | [] => .error (.malformed ⟨.nothingToRepeat, span⟩)
  | item :: rest =>
    if item.node.repeatable then
      let repeated := { item with node := .iterate item.node quantifier }
      .ok { draft with scope := { draft.scope with items := repeated :: rest } }
    else .error (.malformed ⟨.nothingToRepeat, ⟨item.begin, span.stop⟩⟩)

/-- Closes the innermost group. -/
def close (draft : Draft) (span : Span) : Except PatternError Draft :=
  match draft.opened with
  | [] => .error (.malformed ⟨.unmatchedClose, span⟩)
  | group :: rest =>
    .ok ⟨group.outer.push ⟨group.begin, group.kind.wrap draft.scope.node⟩, rest⟩

/-- Adds a token. -/
def add (resolver : Resolver) (draft : Draft) (placed : PlacedToken) :
    Except PatternError Draft :=
  let begin := placed.span.start
  match placed.token with
  | .char c => .ok (draft.push begin (.char c))
  | .anyChar => .ok (draft.push begin .anyChar)
  | .textStart => .ok (draft.push begin .textStart)
  | .textEnd => .ok (draft.push begin .textEnd)
  | .openGroup kind => .ok ⟨.empty, ⟨kind, begin, draft.scope⟩ :: draft.opened⟩
  | .closeGroup => draft.close placed.span
  | .bar => .ok { draft with scope := draft.scope.divide }
  | .quantifier quantifier => draft.quantify quantifier placed.span
  | .property reference => (resolve resolver reference).map (draft.push begin)
  | .set negated items =>
    (addItems resolver ⟨negated, .empty, []⟩ items).map fun set => draft.push begin (.set set)

/-- Adds tokens up to the first that does not fit. -/
def addAll (resolver : Resolver) (draft : Draft) : List PlacedToken → Except PatternError Draft
  | [] => .ok draft
  | token :: rest =>
    match draft.add resolver token with
    | .error error => .error error
    | .ok draft => draft.addAll resolver rest

/-- The tree, once all tokens of a source of a given length are added. -/
def finish (draft : Draft) (length : Nat) : Except PatternError Node :=
  match draft.opened with
  | [] => .ok draft.scope.node
  | group :: _ => .error (.malformed ⟨.unclosedGroup, ⟨group.begin, length⟩⟩)

/-! ### What tokens do -/

section

theorem map_eq_ok_iff {ε α β : Type} {result : Except ε α} {f : α → β} {value : β} :
    result.map f = .ok value ↔ ∃ given, result = .ok given ∧ f given = value := by
  cases result <;> simp [Except.map]

theorem map_eq_error_iff {ε α β : Type} {result : Except ε α} {f : α → β} {error : ε} :
    result.map f = .error error ↔ result = .error error := by
  cases result <;> simp [Except.map]

variable {draft next : Draft} {fault : PatternError} {quantifier : Quantifier} {span : Span}

theorem quantify_eq_ok_iff :
    draft.quantify quantifier span = .ok next ↔
      ∃ item rest, draft.scope.items = item :: rest ∧ item.node.repeatable = true ∧
        { draft with scope := { draft.scope with
          items := { item with node := .iterate item.node quantifier } :: rest } } = next := by
  rw [quantify]
  cases draft.scope.items with
  | nil => simp
  | cons item rest => cases hrepeatable : item.node.repeatable <;> simp [and_assoc, hrepeatable]

theorem quantify_eq_error_iff :
    draft.quantify quantifier span = .error fault ↔
      draft.scope.items = [] ∧ .malformed ⟨.nothingToRepeat, span⟩ = fault ∨
      ∃ item rest, draft.scope.items = item :: rest ∧ item.node.repeatable = false ∧
        .malformed ⟨.nothingToRepeat, ⟨item.begin, span.stop⟩⟩ = fault := by
  rw [quantify]
  cases draft.scope.items with
  | nil => simp
  | cons item rest => cases hrepeatable : item.node.repeatable <;> simp [and_assoc, hrepeatable]

theorem close_eq_ok_iff :
    draft.close span = .ok next ↔
      ∃ group rest, draft.opened = group :: rest ∧
        ⟨group.outer.push ⟨group.begin, group.kind.wrap draft.scope.node⟩, rest⟩ = next := by
  rw [close]
  cases draft.opened <;> simp [and_assoc]

theorem close_eq_error_iff :
    draft.close span = .error fault ↔
      draft.opened = [] ∧ .malformed ⟨.unmatchedClose, span⟩ = fault := by
  rw [close]
  cases draft.opened <;> simp

variable {resolver : Resolver} {reference : PropertyReference} {negated : Bool}
  {items : List ClassItem}

theorem add_property_eq_ok_iff :
    draft.add resolver ⟨.property reference, span⟩ = .ok next ↔
      ∃ node, resolve resolver reference = .ok node ∧ draft.push span.start node = next :=
  map_eq_ok_iff

theorem add_property_eq_error_iff :
    draft.add resolver ⟨.property reference, span⟩ = .error fault ↔
      resolve resolver reference = .error fault :=
  map_eq_error_iff

theorem add_set_eq_ok_iff :
    draft.add resolver ⟨.set negated items, span⟩ = .ok next ↔
      ∃ set, addItems resolver ⟨negated, .empty, []⟩ items = .ok set ∧
        draft.push span.start (.set set) = next :=
  map_eq_ok_iff

theorem add_set_eq_error_iff :
    draft.add resolver ⟨.set negated items, span⟩ = .error fault ↔
      addItems resolver ⟨negated, .empty, []⟩ items = .error fault :=
  map_eq_error_iff

end

end Draft

/-- The tree of a pattern.  Faults are reported in the order of the source. -/
def Node.ofText (resolver : Resolver) (source : List Char) : Except PatternError Node :=
  let reading := Tokens.ofText source
  match Draft.empty.addAll resolver reading.tokens with
  | .error error => .error error
  | .ok draft =>
    match reading.fault with
    | some error => .error (.malformed error)
    | none => draft.finish (utf8Length source)

end EmojiPatterns
