import CreatorMigration.Proofs.Path.Normal

/-! # Paths below a directory

In the order by components a directory stands in front of what lies below it, and nothing else
stands in between.

* `Path.IsBelow` compares components: a path goes on where the directory ends. The empty path is
  above all others in that reading, those that start from the root or with `..` included.
* `Path.isUnder_of_between` is what a search for directories without others below them rests on.
-/

namespace CreatorMigration

/-! ## Components in their order -/

instance : Std.LawfulEqCmp Component.order where
  eq_of_compare := by
    intro left right same
    obtain ⟨ranks, texts⟩ := Ordering.then_eq_eq.1 same
    have sameRank : left.rank = right.rank := Std.LawfulEqCmp.eq_of_compare ranks
    have sameText : left.text = right.text := Std.LawfulEqCmp.eq_of_compare texts
    cases left <;> cases right <;> simp_all [Component.rank, Component.text]

section

variable {α : Type} {order : α → α → Ordering}

theorem Ordered.compareLex_append_cons [Std.ReflCmp order] (front : List α) (next : α)
    (rest : List α) : List.compareLex order front (front ++ next :: rest) = .lt := by
  induction front with
  | nil => rfl
  | cons first front inductionHypothesis =>
    have same : order first first = .eq := Std.ReflCmp.compare_self
    rw [List.cons_append, List.compareLex_cons_cons, same]
    exact inductionHypothesis

/-- What stands between a list and one that continues it continues it as well. -/
theorem Ordered.prefix_of_compareLex_between [Std.TransCmp order] [Std.LawfulEqCmp order]
    {front middle rest : List α} (atLeast : (List.compareLex order front middle).isLE = true)
    (atMost : (List.compareLex order middle (front ++ rest)).isLE = true) : front <+: middle := by
  induction front generalizing middle with
  | nil => exact List.nil_prefix
  | cons first front inductionHypothesis =>
    cases middle with
    | nil => cases atLeast
    | cons second middle =>
      rw [List.cons_append] at atMost
      rw [List.compareLex_cons_cons] at atLeast atMost
      have flipped : order second first = (order first second).swap := Std.OrientedCmp.eq_swap
      -- the first elements can only be equal, as each of them comes before the other one
      cases compared : order first second with
      | lt =>
        rw [flipped, compared] at atMost
        cases atMost
      | gt =>
        rw [compared] at atLeast
        cases atLeast
      | eq =>
        cases Std.LawfulEqCmp.eq_of_compare compared
        rw [compared] at atLeast atMost
        exact (List.prefix_cons_inj first).2 (inductionHypothesis atLeast atMost)

end

namespace Path

/-! ## Below a directory -/

/-- The path starts with all components of the directory and has more of them. -/
def IsBelow (path directory : Path) : Prop :=
  path.isUnder directory = true ∧ path.components ≠ directory.components

instance (path directory : Path) : Decidable (path.IsBelow directory) :=
  inferInstanceAs (Decidable (_ ∧ _))

variable {path directory : Path}

theorem isUnder_iff : path.isUnder directory = true ↔ directory.components <+: path.components :=
  List.isPrefixOf_iff_prefix

theorem isBelow_iff :
    path.IsBelow directory ↔
      ∃ next rest, path.components = directory.components ++ next :: rest := by
  rw [IsBelow, isUnder_iff]
  constructor
  · rintro ⟨⟨tail, joined⟩, longer⟩
    cases tail with
    | nil => exact absurd (joined.symm.trans (List.append_nil _)) longer
    | cons next rest => exact ⟨next, rest, joined.symm⟩
  · rintro ⟨next, rest, joined⟩
    refine ⟨⟨next :: rest, joined.symm⟩, fun same => ?_⟩
    have lengths := congrArg List.length (same.symm.trans joined)
    simp at lengths

/-- A directory stands in front of what lies below it. -/
theorem IsBelow.order_eq_lt (below : path.IsBelow directory) : directory.order path = .lt := by
  obtain ⟨next, rest, joined⟩ := isBelow_iff.1 below
  rw [order, joined]
  exact Ordered.compareLex_append_cons _ next rest

/-- What stands between a directory and a path in it is in the directory as well. -/
theorem isUnder_of_between {middle : Path} (behind : directory.order middle = .lt)
    (inFront : (middle.order path).isLE = true) (under : path.isUnder directory = true) :
    middle.isUnder directory = true := by
  obtain ⟨rest, joined⟩ := isUnder_iff.1 under
  rw [order, ← joined] at inFront
  have atLeast : (directory.order middle).isLE = true := by rw [behind]; rfl
  exact isUnder_iff.2 (Ordered.prefix_of_compareLex_between atLeast inFront)

theorem components_eq_of_order_eq {left right : Path} (same : left.order right = .eq) :
    left.components = right.components :=
  Std.LawfulEqCmp.eq_of_compare same

end Path

end CreatorMigration
