import CreatorMigration.Proofs.Edit
import Mathlib.Data.List.Pairwise
import Mathlib.Data.List.Perm.Basic

/-! # The outermost edits

`Edit.outermost` goes through the edits from the first to the last start, the widest of one start
first, and keeps each that does not clash with one kept before it. `Edit.Sifted` says which edits
are kept by that and which are dropped, and `Edit.outermost_choice` what the choice is good for: it
can always be applied, each dropped edit gives way to one that is kept, and neither a second choice
nor the order of the edits makes a difference.
-/

namespace CreatorMigration.Edit

/-! ## Sifting -/

/-- The edits that are kept and those that are dropped, one after the other, behind those that are
kept already. -/
inductive Sifted : List Edit → List Edit → List Edit → List Edit → Prop where
  | done {already : List Edit} : Sifted already [] [] []
  | drop {already edits kept dropped : List Edit} {edit : Edit}
      (clash : ∃ earlier ∈ already, clashes earlier edit = true)
      (others : Sifted already edits kept dropped) :
      Sifted already (edit :: edits) kept (edit :: dropped)
  | keep {already edits kept dropped : List Edit} {edit : Edit}
      (clear : ∀ earlier ∈ already, clashes earlier edit = false)
      (others : Sifted (already ++ [edit]) edits kept dropped) :
      Sifted already (edit :: edits) (edit :: kept) dropped

theorem exists_sifted (already edits : List Edit) :
    ∃ kept dropped, keepClear already edits = already ++ kept ∧
      Sifted already edits kept dropped := by
  fun_induction keepClear already edits with
  | case1 already => exact ⟨[], [], (List.append_nil _).symm, .done⟩
  | case2 already edit rest clash inductionHypothesis =>
    obtain ⟨kept, dropped, same, sifted⟩ := inductionHypothesis
    exact ⟨kept, edit :: dropped, same, .drop (List.any_eq_true.1 clash) sifted⟩
  | case3 already edit rest clear inductionHypothesis =>
    obtain ⟨kept, dropped, same, sifted⟩ := inductionHypothesis
    refine ⟨edit :: kept, dropped, by rw [same, List.append_assoc]; rfl, .keep ?_ sifted⟩
    exact fun earlier member =>
      Bool.eq_false_iff.2 (List.any_eq_false.1 (Bool.eq_false_iff.2 clear) earlier member)

namespace Sifted

variable {already edits kept dropped : List Edit} (sifted : Sifted already edits kept dropped)

include sifted

theorem sublist : kept.Sublist edits := by
  induction sifted with
  | done => exact .slnil
  | drop _ _ inductionHypothesis => exact .cons _ inductionHypothesis
  | keep _ _ inductionHypothesis => exact .cons_cons _ inductionHypothesis

/-- No edit is lost or made up. -/
theorem perm : (kept ++ dropped).Perm edits := by
  induction sifted with
  | done => exact .nil
  | drop _ _ inductionHypothesis => exact List.perm_middle.trans (inductionHypothesis.cons _)
  | keep _ _ inductionHypothesis => exact inductionHypothesis.cons _

theorem pairwise (clear : already.Pairwise fun first second => clashes first second = false) :
    (already ++ kept).Pairwise fun first second => clashes first second = false := by
  induction sifted with
  | done => simpa using clear
  | drop _ _ inductionHypothesis => exact inductionHypothesis clear
  | keep apart _ inductionHypothesis =>
    rw [← List.append_cons] at inductionHypothesis
    refine inductionHypothesis (List.pairwise_append.2 ⟨clear, List.pairwise_singleton _ _, ?_⟩)
    exact fun earlier member other single => List.mem_singleton.1 single ▸ apart earlier member

/-- A dropped edit clashes with one that is kept in front of it. -/
theorem exists_clash
    (ordered : (already ++ edits).Pairwise fun first second => widerFirst first second = true)
    {edit : Edit} (member : edit ∈ dropped) :
    ∃ wide ∈ already ++ kept, clashes wide edit = true ∧ widerFirst wide edit = true := by
  induction sifted with
  | done => cases member
  | drop clash others inductionHypothesis =>
    rcases List.mem_cons.1 member with rfl | member
    · obtain ⟨earlier, earlierMember, clashing⟩ := clash
      have before := (List.pairwise_append.1 ordered).2.2 earlier earlierMember _ List.mem_cons_self
      exact ⟨earlier, List.mem_append_left _ earlierMember, clashing, before⟩
    · have orderedRest := ordered.sublist ((List.sublist_cons_self _ _).append_left _)
      exact inductionHypothesis orderedRest member
  | keep _ _ inductionHypothesis =>
    rw [← List.append_cons, ← List.append_cons] at inductionHypothesis
    exact inductionHypothesis ordered member

end Sifted

/-! ## The order of the edits -/

theorem widerFirst_iff {left right : Edit} :
    widerFirst left right = true ↔ left.span.start < right.span.start ∨
      left.span.start = right.span.start ∧ right.span.stop ≤ left.span.stop := by
  simp [widerFirst]

theorem pairwise_sort_widerFirst (edits : List Edit) :
    (Ordered.sort widerFirst edits).Pairwise fun first second =>
      widerFirst first second = true := by
  refine Ordered.pairwise_sort widerFirst ?_ ?_ edits <;>
    simp only [widerFirst_iff, Bool.or_eq_true] <;> omega

/-- Edits that may stand in front of each other have one span. -/
theorem span_eq_of_widerFirst {left right : Edit} (first : widerFirst left right = true)
    (second : widerFirst right left = true) : left.span = right.span := by
  rw [widerFirst_iff] at first second
  exact Span.eq_of_offsets (by omega) (by omega)

theorem exists_outermost_sifted (edits : List Edit) :
    ∃ dropped, Sifted [] (Ordered.sort widerFirst edits) (outermost edits) dropped := by
  obtain ⟨kept, dropped, same, sifted⟩ := exists_sifted [] (Ordered.sort widerFirst edits)
  refine ⟨dropped, ?_⟩
  rwa [outermost, same, List.nil_append]

theorem pairwise_widerFirst_outermost (edits : List Edit) :
    (outermost edits).Pairwise fun first second => widerFirst first second = true := by
  obtain ⟨dropped, sifted⟩ := exists_outermost_sifted edits
  exact (pairwise_sort_widerFirst edits).sublist sifted.sublist

theorem pairwise_clear_outermost (edits : List Edit) :
    (outermost edits).Pairwise fun first second => clashes first second = false := by
  obtain ⟨dropped, sifted⟩ := exists_outermost_sifted edits
  exact sifted.pairwise .nil

/-! ## Choosing again -/

theorem keepClear_of_pairwise {already edits : List Edit}
    (clear : (already ++ edits).Pairwise fun first second => clashes first second = false) :
    keepClear already edits = already ++ edits := by
  induction edits generalizing already with
  | nil => exact (List.append_nil _).symm
  | cons edit rest inductionHypothesis =>
    have none : already.any (clashes · edit) = false :=
      List.any_eq_false.2 fun earlier member => Bool.eq_false_iff.1
        ((List.pairwise_append.1 clear).2.2 earlier member edit List.mem_cons_self)
    rw [List.append_cons] at clear ⊢
    rw [keepClear, if_neg (by simp [none]), inductionHypothesis clear]

theorem outermost_outermost (edits : List Edit) :
    outermost (outermost edits) = outermost edits := by
  rw [outermost, Ordered.sort_of_pairwise widerFirst (pairwise_widerFirst_outermost edits)]
  exact keepClear_of_pairwise (pairwise_clear_outermost edits)

/-! ## Choosing from another order -/

/-- Which spans are kept depends on the spans only. -/
theorem map_span_keepClear {already other edits others : List Edit}
    (keptSpans : already.map Edit.span = other.map Edit.span)
    (spans : edits.map Edit.span = others.map Edit.span) :
    (keepClear already edits).map Edit.span = (keepClear other others).map Edit.span := by
  induction edits generalizing already other others with
  | nil =>
    obtain rfl := List.map_eq_nil_iff.1 spans.symm
    exact keptSpans
  | cons edit rest inductionHypothesis =>
    obtain ⟨same, later, rfl, sameSpan, laterSpans⟩ := List.map_eq_cons_iff.1 spans.symm
    have hits (list : List Edit) (found : Edit) :
        list.any (clashes · found) =
          (list.map Edit.span).any fun span => clashes ⟨span, ""⟩ ⟨found.span, ""⟩ := by
      rw [List.any_map]
      rfl
    rw [keepClear, keepClear, hits, hits, keptSpans, sameSpan]
    split
    · exact inductionHypothesis keptSpans laterSpans.symm
    · refine inductionHypothesis ?_ laterSpans.symm
      rw [List.map_append, List.map_append, keptSpans, List.map_singleton, List.map_singleton,
        sameSpan]

theorem map_span_outermost_of_perm {edits others : List Edit} (perm : others.Perm edits) :
    (outermost others).map Edit.span = (outermost edits).map Edit.span := by
  refine map_span_keepClear rfl ?_
  have reordered : (Ordered.sort widerFirst others).Perm (Ordered.sort widerFirst edits) :=
    (Ordered.perm_sort widerFirst others).trans
      (perm.trans (Ordered.perm_sort widerFirst edits).symm)
  let mayPrecede (left right : Span) : Prop := widerFirst ⟨left, ""⟩ ⟨right, ""⟩ = true
  have sorted (list : List Edit) :
      ((Ordered.sort widerFirst list).map Edit.span).Pairwise mayPrecede :=
    List.pairwise_map.2 (pairwise_sort_widerFirst list)
  -- the order tells spans apart, so it leaves one way only to put them
  have unique (left right : Span) (first : mayPrecede left right)
      (second : mayPrecede right left) : left = right := span_eq_of_widerFirst first second
  exact (reordered.map Edit.span).eq_of_pairwise (fun left right _ _ => unique left right)
    (sorted others) (sorted edits)

/-! ## The choice -/

/-- Of two edits that share bytes one spans the other. -/
def Nested (edits : List Edit) : Prop :=
  ∀ first ∈ edits, ∀ second ∈ edits, first.overlaps second = true →
    first.contains second = true ∨ second.contains first = true

/-- The edits of a list are kept or dropped, and none that is dropped can be missed. -/
structure IsChoice (edits kept dropped : List Edit) : Prop where
  perm : (kept ++ dropped).Perm edits
  byStart : kept.Pairwise fun first second => first.span.start ≤ second.span.start
  apart : kept.Pairwise fun first second =>
    first.overlaps second = false ∧ first.span ≠ second.span
  givesWay : ∀ edit ∈ dropped, ∃ wide ∈ kept,
    (wide.overlaps edit = true ∨ wide.span = edit.span) ∧ wide.span.start ≤ edit.span.start
  isSpanned : Nested edits → ∀ edit ∈ dropped, ∃ wide ∈ kept, wide.contains edit = true
  spansNone : Nested edits → ∀ edit ∈ dropped, ∀ inner ∈ kept,
    inner.span.start < inner.span.stop → edit.contains inner = true → edit.span = inner.span

theorem contains_iff {outer inner : Edit} :
    outer.contains inner = true ↔
      outer.span.start ≤ inner.span.start ∧ inner.span.stop ≤ outer.span.stop :=
  Span.contains_iff

theorem span_eq_of_contains {first second : Edit} (spans : first.contains second = true)
    (spanned : second.contains first = true) : first.span = second.span := by
  rw [contains_iff] at spans spanned
  exact Span.eq_of_offsets (by omega) (by omega)

theorem clashes_iff {earlier edit : Edit} :
    clashes earlier edit = true ↔ earlier.overlaps edit = true ∨ earlier.span = edit.span := by
  simp [clashes]

theorem Disjoint.overlaps_eq_false {edits : List Edit} (disjoint : Disjoint edits)
    {first second : Edit} (firstMember : first ∈ edits) (secondMember : second ∈ edits)
    (different : first ≠ second) : first.overlaps second = false := by
  have symmetric : Std.Symm fun left right : Edit => left.overlaps right = false :=
    ⟨fun _ _ apart => (Span.overlaps_comm _ _).trans apart⟩
  exact List.Pairwise.forall disjoint firstMember secondMember different

/-- A wider edit in front of an edit it clashes with spans it, where one has to span the other. -/
theorem contains_of_clashes {wide edit : Edit} (clash : clashes wide edit = true)
    (before : widerFirst wide edit = true)
    (nested : wide.overlaps edit = true → wide.contains edit = true ∨ edit.contains wide = true) :
    wide.contains edit = true := by
  rcases clashes_iff.1 clash with overlap | same
  · rcases nested overlap with spans | spanned
    · exact spans
    -- then both have one span
    · rw [contains_iff] at spanned ⊢
      rw [widerFirst_iff] at before
      omega
  · rw [contains_iff, same]
    exact ⟨Nat.le_refl _, Nat.le_refl _⟩

theorem exists_isChoice (edits : List Edit) :
    ∃ dropped, IsChoice edits (outermost edits) dropped := by
  obtain ⟨dropped, sifted⟩ := exists_outermost_sifted edits
  have perm : (outermost edits ++ dropped).Perm edits :=
    sifted.perm.trans (Ordered.perm_sort widerFirst edits)
  have clear := pairwise_clear_outermost edits
  have clash {edit : Edit} (member : edit ∈ dropped) :=
    sifted.exists_clash (pairwise_sort_widerFirst edits) member
  have keptMember {edit : Edit} (member : edit ∈ outermost edits) : edit ∈ edits :=
    perm.mem_iff.1 (List.mem_append_left _ member)
  have droppedMember {edit : Edit} (member : edit ∈ dropped) : edit ∈ edits :=
    perm.mem_iff.1 (List.mem_append_right _ member)
  have isSpanned (nested : Nested edits) {edit : Edit} (member : edit ∈ dropped) :
      ∃ wide ∈ outermost edits, wide.contains edit = true := by
    obtain ⟨wide, wideMember, clashing, before⟩ := clash member
    exact ⟨wide, wideMember, contains_of_clashes clashing before
      (nested wide (keptMember wideMember) edit (droppedMember member))⟩
  refine ⟨dropped, perm, ?_, ?_, ?_, fun nested edit => isSpanned nested, ?_⟩
  · refine (pairwise_widerFirst_outermost edits).imp fun before => ?_
    rw [widerFirst_iff] at before
    omega
  · refine clear.imp fun {first second} apart => ?_
    have none := mt clashes_iff.2 (Bool.eq_false_iff.1 apart)
    exact ⟨Bool.eq_false_iff.2 fun overlap => none (.inl overlap), fun same => none (.inr same)⟩
  · intro edit member
    obtain ⟨wide, wideMember, clashing, before⟩ := clash member
    refine ⟨wide, wideMember, clashes_iff.1 clashing, ?_⟩
    rw [widerFirst_iff] at before
    omega
  -- an edit inside a dropped one is inside the one that this gave way to, and so is that one itself
  · intro nested edit member inner innerMember nonempty spans
    obtain ⟨wide, wideMember, wider⟩ := isSpanned nested member
    by_cases same : wide = inner
    · exact span_eq_of_contains spans (same ▸ wider)
    · have apart := (disjoint_outermost edits).overlaps_eq_false wideMember innerMember same
      rw [overlaps_eq_false_iff] at apart
      rw [contains_iff] at spans wider
      omega

/-- Where edits that share bytes lie in each other, one that is kept spans an edit, and no other one
that is kept shares bytes with it. -/
theorem exists_kept_around {edits : List Edit} (nested : Nested edits) {edit : Edit}
    (member : edit ∈ edits) :
    ∃ wide ∈ outermost edits, wide.contains edit = true ∧
      ∀ other ∈ outermost edits, other.overlaps edit = true → other = wide := by
  obtain ⟨dropped, choice⟩ := exists_isChoice edits
  have around : ∃ wide ∈ outermost edits, wide.contains edit = true := by
    rcases List.mem_append.1 (choice.perm.mem_iff.2 member) with kept | given
    · exact ⟨edit, kept, contains_iff.2 ⟨Nat.le_refl _, Nat.le_refl _⟩⟩
    · exact choice.isSpanned nested edit given
  obtain ⟨wide, wideMember, wider⟩ := around
  refine ⟨wide, wideMember, wider, fun other otherMember overlap => ?_⟩
  by_contra different
  have apart := (disjoint_outermost edits).overlaps_eq_false otherMember wideMember different
  rw [overlaps, Span.overlaps, Bool.and_eq_true, decide_eq_true_eq, decide_eq_true_eq] at overlap
  rw [overlaps, Span.overlaps_eq_false_iff] at apart
  rw [contains_iff] at wider
  omega

/-- What the choice of the outermost edits is good for. -/
structure ChoosesWell (edits : List Edit) : Prop where
  isChoice : ∃ dropped, IsChoice edits (outermost edits) dropped
  /-- The chosen edits never get in each other's way. -/
  applicable : ∀ text, (∀ edit ∈ outermost edits, inBounds text edit = true) →
    ∃ result, applyAll text (outermost edits) = .ok result
  settled : outermost (outermost edits) = outermost edits
  reordered : ∀ others : List Edit, others.Perm edits →
    (outermost others).map Edit.span = (outermost edits).map Edit.span

/-- The outermost edits are a choice that can be applied and that needs no second one. -/
theorem outermost_choice (edits : List Edit) : ChoosesWell edits := by
  refine ⟨exists_isChoice edits, fun text bounds => ?_, outermost_outermost edits, fun others perm =>
    map_span_outermost_of_perm perm⟩
  have isIn : ∀ edit ∈ outermost edits, edit.span.IsIn text := fun edit member =>
    inBounds_iff.1 (bounds edit member)
  exact (exists_applyAll_iff isIn).2 (disjoint_outermost edits)

end CreatorMigration.Edit
