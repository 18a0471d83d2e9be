import EmojiPatterns.Proofs.Resemblance

/-!
# Laws of iteration

The ends of a repetition come in depth first order: everything that can be reached from an end by
further iterations is listed before it.  So iterating what is already an iteration reaches nothing
new, and nothing in another order.  Main statements: each of `*`, `+` and `?` upon each of them is
one of them again (the lemmas of the last part), and the two unrolling equations
`Steps.oneOrMore_resembles` and `Steps.anyNumber_resembles`.
-/

namespace EmojiPatterns.Steps

variable {text : List Char} (body : Steps text)

/-- The ends that come further, which are all that count once there are enough iterations. -/
def onward (c : Cursor text) : List (Cursor text) :=
  (body.ends c).filter (· ≠ c)

theorem lt_of_mem_onward {c d : Cursor text} (hmem : d ∈ body.onward c) : c < d := by
  rw [onward, List.mem_filter, decide_eq_true_eq] at hmem
  exact Cursor.lt_of_le_of_ne (body.forward c d hmem.1) hmem.2

/-! ### One iteration more -/

/-- Without an upper bound, how many iterations were made does not matter once they are enough. -/
theorem rounds_eq_rounds {few many : Quantifier} (hfew : few.most = none) (hmany : many.most = none)
    {count more : Nat} (hcount : few.least ≤ count) (hmore : many.least ≤ more) (c : Cursor text) :
    body.rounds few count c = body.rounds many more c := by
  have honward : ∀ {quantifier : Quantifier} {count : Nat}, quantifier.most = none →
      quantifier.least ≤ count → body.iteration quantifier count c = body.onward c := by
    intro quantifier count hmost henough
    rw [iteration, hmost, if_pos (by rfl), onward]
    simp only [Nat.not_lt.mpr henough, decide_false, Bool.false_or]
  rw [rounds_eq, rounds_eq, honward hfew hcount, honward hmany hmore, if_pos hcount, if_pos hmore]
  congr 1
  apply List.flatMap_congr
  intro d hmem
  have hlt := body.lt_of_mem_onward hmem
  exact rounds_eq_rounds hfew hmany (by omega) (by omega) d
termination_by c.ahead.length
decreasing_by exact Cursor.ahead_length_lt hlt

theorem ends_anyNumber (c : Cursor text) :
    (body.repeated .anyNumber).ends c =
      (body.onward c).flatMap (body.repeated .anyNumber).ends ++ [c] := by
  have hiteration : body.iteration .anyNumber 0 c = body.onward c := by
    simp [iteration, Quantifier.anyNumber, onward]
  have hrest : body.rounds .anyNumber 1 = body.rounds .anyNumber 0 :=
    funext (body.rounds_eq_rounds rfl rfl (Nat.zero_le 1) (Nat.le_refl 0))
  change body.rounds .anyNumber 0 c = _
  rw [rounds_eq, hiteration, hrest]
  rfl

/-- The first iteration of `+` counts even if it stays where it is. -/
theorem ends_oneOrMore (c : Cursor text) :
    (body.repeated .oneOrMore).ends c =
      (body.ends c).flatMap (body.repeated .anyNumber).ends := by
  have hiteration : body.iteration .oneOrMore 0 c = body.ends c := by
    simp [iteration, Quantifier.oneOrMore]
  have hrest : body.rounds .oneOrMore 1 = body.rounds .anyNumber 0 :=
    funext (body.rounds_eq_rounds rfl rfl (Nat.le_refl 1) (Nat.le_refl 0))
  change body.rounds .oneOrMore 0 c = _
  rw [rounds_eq, hiteration, hrest]
  exact List.append_nil _

theorem ends_atMostOne (c : Cursor text) :
    (body.repeated .atMostOne).ends c = body.onward c ++ [c] := by
  have hiteration : body.iteration .atMostOne 0 c = body.onward c := by
    simp [iteration, Quantifier.atMostOne, onward]
  have hlast : ∀ d, body.rounds .atMostOne 1 d = [d] := by
    intro d
    rw [rounds_eq]
    simp [iteration, Quantifier.atMostOne]
  change body.rounds .atMostOne 0 c = _
  rw [rounds_eq, hiteration, funext hlast, List.flatMap_singleton']
  rfl

/-! ### Ends that come further -/

/-- What an iteration reaches beyond its start is what is reached from its first ends. -/
theorem onward_anyNumber (c : Cursor text) :
    (body.repeated .anyNumber).onward c =
      (body.onward c).flatMap (body.repeated .anyNumber).ends := by
  have hkept : ∀ d ∈ (body.onward c).flatMap (body.repeated .anyNumber).ends, d ≠ c := by
    intro d hmem heq
    obtain ⟨e, honward, hrest⟩ := List.mem_flatMap.mp hmem
    have hlt := body.lt_of_mem_onward honward
    have hle := (body.repeated .anyNumber).forward e d hrest
    rw [heq] at hle
    exact Nat.lt_irrefl _ (Cursor.lt_of_lt_of_le hlt hle)
  rw [onward, ends_anyNumber, List.filter_append, List.filter_eq_self.mpr (by simpa using hkept)]
  simp

theorem ends_anyNumber_eq_onward (c : Cursor text) :
    (body.repeated .anyNumber).ends c = (body.repeated .anyNumber).onward c ++ [c] := by
  rw [onward_anyNumber, ends_anyNumber]

theorem onward_atMostOne (c : Cursor text) :
    (body.repeated .atMostOne).onward c = body.onward c := by
  rw [onward, ends_atMostOne, List.filter_append]
  simp [onward]

/-- A value that stands for the whole search may be left out of it. -/
theorem findSome?_filter_or {α β : Type} [DecidableEq α] {list : List α} {a : α} {f : α → Option β}
    {last : Option β} (hwhole : f a = ((list.filter (· ≠ a)).findSome? f).or last) :
    (list.findSome? f).or last = ((list.filter (· ≠ a)).findSome? f).or last := by
  by_cases hmem : a ∈ list
  · obtain ⟨front, back, rfl, hfront⟩ := List.eq_append_cons_of_mem hmem
    have hkept : front.filter (· ≠ a) = front := by
      apply List.filter_eq_self.mpr
      intro b hb
      simpa using ne_of_mem_of_not_mem hb hfront
    rw [List.filter_append, hkept, List.findSome?_append] at hwhole ⊢
    rw [List.findSome?_append, List.findSome?_cons]
    cases hvalue : front.findSome? f with
    | some b => rfl
    | none =>
      -- Nothing is found before `a`, so the search stops at `a` or finds nothing at all.
      simp only [hvalue, Option.none_or] at hwhole ⊢
      rw [← hwhole]
      cases hself : f a with
      | some b => rfl
      | none =>
        rw [hself] at hwhole
        have hrest := hwhole.symm
        rw [Option.or_eq_none_iff, List.filter_cons_of_neg (by simp),
          findSome?_filter] at hrest
        have hsame : (fun b => if (decide (b ≠ a)) = true then f b else none) = f := by
          funext b
          by_cases hb : b = a
          · simp [hb, hself]
          · simp [hb]
        rw [hsame] at hrest
        rw [hrest.1, hrest.2]
        rfl
  · have hkept : list.filter (· ≠ a) = list := by
      apply List.filter_eq_self.mpr
      intro b hb
      simpa using ne_of_mem_of_not_mem hb hmem
    rw [hkept]

/-! ### Unrolling -/

/-- `+` is the body once and then `*`. -/
theorem oneOrMore_resembles :
    (body.repeated .oneOrMore).Resembles (body.followedBy (body.repeated .anyNumber)) :=
  fun c => .of_eq (body.ends_oneOrMore c)

/-- `*` is `+` or nothing.  In the list of `+` an end of the body that stays where it is brings the
whole list of `*` once more, and that changes no search. -/
theorem anyNumber_resembles :
    (body.repeated .anyNumber).Resembles
      ((body.repeated .oneOrMore).orElse (.stay fun _ => true)) := by
  intro c β f
  change _ = ((body.repeated .oneOrMore).ends c ++ [c]).findSome? f
  rw [List.findSome?_append, ends_oneOrMore, findSome?_flatMap, ends_anyNumber,
    List.findSome?_append, findSome?_flatMap]
  symm
  apply findSome?_filter_or
  rw [ends_anyNumber, List.findSome?_append, findSome?_flatMap]
  rfl

theorem onward_oneOrMore (c : Cursor text) :
    SameFirst ((body.repeated .oneOrMore).onward c) ((body.repeated .anyNumber).onward c) := by
  have hends := (body.anyNumber_resembles c).symm.filter (· ≠ c)
  have hplus : ((body.repeated .oneOrMore).orElse (.stay fun _ => true)).ends c =
      (body.repeated .oneOrMore).ends c ++ [c] := rfl
  rw [hplus, List.filter_append, List.filter_cons_of_neg (by simp), List.filter_nil,
    List.append_nil] at hends
  exact hends

/-! ### Iterating iterations -/

/-- From an end of an iteration, iterating on reaches nothing that was not listed before it. -/
theorem anyNumber_followedBy_anyNumber :
    ((body.repeated .anyNumber).followedBy (body.repeated .anyNumber)).Resembles
      (body.repeated .anyNumber) := by
  intro c
  change SameFirst (((body.repeated .anyNumber).ends c).flatMap (body.repeated .anyNumber).ends) _
  rw [ends_anyNumber, List.flatMap_append, List.flatMap_assoc, List.flatMap_singleton,
    ends_anyNumber]
  have hrest : SameFirst ((body.onward c).flatMap fun d =>
        ((body.repeated .anyNumber).ends d).flatMap (body.repeated .anyNumber).ends)
      ((body.onward c).flatMap (body.repeated .anyNumber).ends) := by
    apply SameFirst.flatMap_congr
    intro d hmem
    have hlt := body.lt_of_mem_onward hmem
    exact anyNumber_followedBy_anyNumber d
  exact (hrest.append (.refl _)).trans (.append_again _ _)
termination_by c => c.ahead.length
decreasing_by exact Cursor.ahead_length_lt hlt

variable {body} in
/-- Bodies whose ends come further in the same order have the same iterations. -/
theorem anyNumber_congr {other : Steps text}
    (honward : ∀ c, SameFirst (body.onward c) (other.onward c)) :
    (body.repeated .anyNumber).Resembles (other.repeated .anyNumber) := by
  intro c
  rw [ends_anyNumber, ends_anyNumber]
  have hrest : SameFirst ((body.onward c).flatMap (body.repeated .anyNumber).ends)
      ((body.onward c).flatMap (other.repeated .anyNumber).ends) := by
    apply SameFirst.flatMap_congr
    intro d hmem
    have hlt := body.lt_of_mem_onward hmem
    exact anyNumber_congr honward d
  exact (hrest.trans ((honward c).flatMap fun _ => .refl _)).append (.refl _)
termination_by c => c.ahead.length
decreasing_by exact Cursor.ahead_length_lt hlt

theorem anyNumber_of_anyNumber :
    ((body.repeated .anyNumber).repeated .anyNumber).Resembles (body.repeated .anyNumber) := by
  intro c
  rw [ends_anyNumber, ends_anyNumber_eq_onward]
  have hrest : SameFirst
      (((body.repeated .anyNumber).onward c).flatMap
        ((body.repeated .anyNumber).repeated .anyNumber).ends)
      (((body.repeated .anyNumber).onward c).flatMap (body.repeated .anyNumber).ends) := by
    apply SameFirst.flatMap_congr
    intro d hmem
    have hlt := (body.repeated .anyNumber).lt_of_mem_onward hmem
    exact anyNumber_of_anyNumber d
  have hagain : SameFirst
      (((body.repeated .anyNumber).onward c).flatMap (body.repeated .anyNumber).ends)
      ((body.repeated .anyNumber).onward c) := by
    rw [onward_anyNumber, List.flatMap_assoc]
    exact .flatMap_congr fun d _ => body.anyNumber_followedBy_anyNumber d
  exact (hrest.trans hagain).append (.refl _)
termination_by c => c.ahead.length
decreasing_by exact Cursor.ahead_length_lt hlt

theorem anyNumber_of_oneOrMore :
    ((body.repeated .oneOrMore).repeated .anyNumber).Resembles (body.repeated .anyNumber) :=
  (anyNumber_congr body.onward_oneOrMore).trans body.anyNumber_of_anyNumber

theorem anyNumber_of_atMostOne :
    ((body.repeated .atMostOne).repeated .anyNumber).Resembles (body.repeated .anyNumber) :=
  anyNumber_congr fun c => .of_eq (body.onward_atMostOne c)

theorem oneOrMore_of_anyNumber :
    ((body.repeated .anyNumber).repeated .oneOrMore).Resembles (body.repeated .anyNumber) :=
  ((body.repeated .anyNumber).oneOrMore_resembles.trans
    ((Resembles.refl _).followedBy body.anyNumber_of_anyNumber)).trans
      body.anyNumber_followedBy_anyNumber

theorem oneOrMore_of_oneOrMore :
    ((body.repeated .oneOrMore).repeated .oneOrMore).Resembles (body.repeated .oneOrMore) := by
  intro c
  have hunrolled := ((body.repeated .oneOrMore).oneOrMore_resembles.trans
    ((Resembles.refl _).followedBy body.anyNumber_of_oneOrMore)) c
  have hagain : SameFirst
      (((body.repeated .oneOrMore).ends c).flatMap (body.repeated .anyNumber).ends)
      ((body.repeated .oneOrMore).ends c) := by
    rw [ends_oneOrMore, List.flatMap_assoc]
    exact .flatMap_congr fun d _ => body.anyNumber_followedBy_anyNumber d
  exact hunrolled.trans hagain

theorem oneOrMore_of_atMostOne :
    ((body.repeated .atMostOne).repeated .oneOrMore).Resembles (body.repeated .anyNumber) := by
  intro c
  have hunrolled := ((body.repeated .atMostOne).oneOrMore_resembles.trans
    ((Resembles.refl _).followedBy body.anyNumber_of_atMostOne)) c
  have hagain : SameFirst
      (((body.repeated .atMostOne).ends c).flatMap (body.repeated .anyNumber).ends)
      ((body.repeated .anyNumber).ends c) := by
    rw [ends_atMostOne, List.flatMap_append, List.flatMap_singleton, ends_anyNumber]
    exact .append_again _ _
  exact hunrolled.trans hagain

theorem atMostOne_of_anyNumber :
    ((body.repeated .anyNumber).repeated .atMostOne).Resembles (body.repeated .anyNumber) := by
  intro c
  rw [ends_atMostOne, ends_anyNumber_eq_onward]
  exact .refl _

theorem atMostOne_of_oneOrMore :
    ((body.repeated .oneOrMore).repeated .atMostOne).Resembles (body.repeated .anyNumber) := by
  intro c
  rw [ends_atMostOne, ends_anyNumber_eq_onward]
  exact (body.onward_oneOrMore c).append (.refl _)

theorem atMostOne_of_atMostOne :
    ((body.repeated .atMostOne).repeated .atMostOne).Resembles (body.repeated .atMostOne) := by
  intro c
  rw [ends_atMostOne, onward_atMostOne, ends_atMostOne]
  exact .refl _

end EmojiPatterns.Steps
