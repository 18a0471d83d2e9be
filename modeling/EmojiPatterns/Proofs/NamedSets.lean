import EmojiPatterns.Proofs.PropertyRejections

/-!
# The sets that a source names

A table is asked for nothing but the names that stand between braces in the source.  Two tables that
hold the same sets for these names therefore lead to the same drafts, token by token, and to the
same fault or the same pattern in the end.  Main statement:
`Pattern.compile_depends_on_named_sets`.
-/

namespace EmojiPatterns

variable {source : List Char}

/-! ### Resolvers that resolve the same -/

namespace Draft

variable {left right : Resolver} {draft : Draft}

theorem resolve_congr {reference : PropertyReference}
    (hresolve : left.resolve reference = right.resolve reference) :
    resolve left reference = resolve right reference := by
  rw [resolve, resolve, hresolve]

theorem resolveInClass_congr {reference : PropertyReference}
    (hresolve : left.resolve reference = right.resolve reference) :
    resolveInClass left reference = resolveInClass right reference := by
  rw [resolveInClass, resolveInClass, hresolve]

theorem addItems_congr (set : CharSet) {items : List ClassItem}
    (hresolve : ∀ reference ∈ items.flatMap ClassItem.references,
      left.resolve reference = right.resolve reference) :
    addItems left set items = addItems right set items := by
  induction items generalizing set with
  | nil => rfl
  | cons item rest ih =>
    rw [List.flatMap_cons, List.forall_mem_append] at hresolve
    cases item with
    | range lo hi => exact ih _ hresolve.2
    | property reference =>
      have hhead := resolveInClass_congr (hresolve.1 reference List.mem_cons_self)
      rw [addItems, addItems, hhead]
      cases resolveInClass right reference with
      | error error => rfl
      | ok holds => exact ih _ hresolve.2

/-- A token is added in the same way if its references resolve to the same. -/
theorem add_congr {placed : PlacedToken}
    (hresolve : ∀ reference ∈ placed.token.references,
      left.resolve reference = right.resolve reference) :
    draft.add left placed = draft.add right placed := by
  obtain ⟨token, span⟩ := placed
  cases token with
  | property reference =>
    have hsame := resolve_congr (hresolve reference List.mem_cons_self)
    simp only [add, hsame]
  | set negated items =>
    have hsame := addItems_congr ⟨negated, .empty, []⟩ hresolve
    simp only [add, hsame]
  | char | anyChar | textStart | textEnd | openGroup | closeGroup | bar | quantifier => rfl

theorem addAll_congr {tokens : List PlacedToken}
    (hresolve : ∀ reference ∈ tokens.flatMap fun placed => placed.token.references,
      left.resolve reference = right.resolve reference) :
    draft.addAll left tokens = draft.addAll right tokens := by
  induction tokens generalizing draft with
  | nil => rfl
  | cons placed rest ih =>
    rw [List.flatMap_cons, List.forall_mem_append] at hresolve
    rw [addAll, addAll, add_congr hresolve.1]
    cases draft.add right placed with
    | error error => rfl
    | ok next => exact ih hresolve.2

end Draft

/-- Only what the references in a source resolve to matters for its tree. -/
theorem Node.ofText_congr {left right : Resolver}
    (hresolve : ∀ reference : PropertyReference, reference.StandsIn source →
      left.resolve reference = right.resolve reference) :
    ofText left source = ofText right source := by
  have htokens : ∀ reference ∈ (Tokens.ofText source).references,
      left.resolve reference = right.resolve reference := by
    intro reference hmem
    exact hresolve reference (Tokens.standsIn_of_mem hmem)
  rw [ofText, ofText, Draft.addAll_congr htokens]

/-! ### Names between braces -/

/-- A name stands somewhere in a source between braces. -/
def Braced (source : List Char) (name : String) : Prop :=
  '\x7b' :: (name.toList ++ ['\x7d']) <:+: source

instance (source : List Char) (name : String) : Decidable (Braced source name) :=
  inferInstanceAs (Decidable (_ <:+: _))

theorem PropertyReference.StandsIn.braced {reference : PropertyReference}
    (hreference : reference.StandsIn source) : Braced source reference.name := by
  obtain ⟨behind, ahead, hsource, -⟩ := hreference.covers
  refine ⟨behind ++ ['\\', if reference.negated then 'P' else 'p'], ahead, ?_⟩
  rw [hsource, Escape.ofName]
  simp

/-- A table is asked for the set of the reference's name alone. -/
theorem Resolver.resolve_congr {left right : Table} {reference : PropertyReference}
    (hset : left.lookup? reference.name = right.lookup? reference.name)
    (charProperty? : String → Option (Char → Bool)) (merge : Bool) :
    Resolver.resolve ⟨left, charProperty?, merge⟩ reference =
      Resolver.resolve ⟨right, charProperty?, merge⟩ reference := by
  rw [resolve, resolve, hset]

theorem Table.lookup?_empty (version : Version) (name : String) :
    (Table.empty version).lookup? name = none := by
  rw [lookup?]
  cases StringProperty.ofName? name with
  | none => rfl
  | some property => rfl

namespace Pattern

/-- Two tables that hold the same sets, or none, for all names that stand between braces in a
source give the same pattern or the same fault for it.  So a source that names no set of a table is
treated as if the table were empty. -/
theorem compile_depends_on_named_sets (source : List Char)
    (charProperty? : String → Option (Char → Bool)) (merge : Bool) :
    (∀ left right : Table, (∀ name, Braced source name → left.lookup? name = right.lookup? name) →
      compile ⟨left, charProperty?, merge⟩ source =
        compile ⟨right, charProperty?, merge⟩ source) ∧
    ∀ (table : Table) (version : Version),
      (∀ name, Braced source name → table.lookup? name = none) →
      compile ⟨table, charProperty?, merge⟩ source =
        compile ⟨.empty version, charProperty?, merge⟩ source := by
  have hsame : ∀ left right : Table,
      (∀ name, Braced source name → left.lookup? name = right.lookup? name) →
      compile ⟨left, charProperty?, merge⟩ source =
        compile ⟨right, charProperty?, merge⟩ source := by
    intro left right hsets
    have htrees : Node.ofText ⟨left, charProperty?, merge⟩ source =
        Node.ofText ⟨right, charProperty?, merge⟩ source := by
      apply Node.ofText_congr
      intro reference hstands
      exact Resolver.resolve_congr (hsets reference.name hstands.braced) charProperty? merge
    rw [compile, compile, htrees]
  refine ⟨hsame, ?_⟩
  intro table version hnone
  apply hsame
  intro name hbraced
  rw [hnone name hbraced, Table.lookup?_empty]

/-- A source that names the keycaps does not show whether the table has flags as well. -/
theorem compile_depends_on_named_sets_keycaps :
    ∃ keycaps flags : StringSet,
      Braced (PropertyReference.escape "Emoji_Keycap_Sequence") "Emoji_Keycap_Sequence" ∧
      compile ⟨⟨.pinned, [(.keycapSequence, keycaps)]⟩, fun _ => none, true⟩
          (PropertyReference.escape "Emoji_Keycap_Sequence") =
        compile ⟨⟨.pinned, [(.keycapSequence, keycaps), (.flagSequence, flags)]⟩, fun _ => none,
          true⟩ (PropertyReference.escape "Emoji_Keycap_Sequence") := by
  let keycaps : StringSet := ⟨"Emoji_Keycap_Sequence", [⟨['#', '\u20E3'], by simp⟩],
    List.pairwise_singleton _ _, by simp⟩
  let flags : StringSet := ⟨"RGI_Emoji_Flag_Sequence",
    [⟨[Char.ofNat 0x1F1FA, Char.ofNat 0x1F1F8], by simp⟩], List.pairwise_singleton _ _, by simp⟩
  refine ⟨keycaps, flags, by decide +kernel, ?_⟩
  apply (compile_depends_on_named_sets _ _ _).1
  intro name hbraced
  rw [Table.lookup?, Table.lookup?]
  cases hname : StringProperty.ofName? name with
  | none => rfl
  | some property =>
    obtain rfl := StringProperty.ofName?_eq_some_iff.mp hname
    cases property with
    | flagSequence => exact absurd hbraced (by decide +kernel)
    | _ => rfl

end Pattern

end EmojiPatterns
