import CreatorMigration.Edit
import CreatorMigration.Proofs.Text.Cuts

/-! # Batches of edits

* `Edit.exists_of_applyAll` says where the replacement of an edit ends up: between the text in front
  of the edit and the text behind it, each with the other edits of the batch put in.
* `Edit.exists_applyAll_iff` says which batches of edits in the bounds of a text can be applied.
-/

namespace CreatorMigration.Edit

/-! ## Applying -/

/-- Copies `text` from `offset` to `stop`, with the ordered edits put in. -/
def spliceTo (text : String) (stop : Nat) : Nat → List Edit → String
  | offset, [] => Text.slice text ⟨offset, stop⟩
  | offset, edit :: rest =>
      Text.slice text ⟨offset, edit.span.start⟩ ++ edit.replacement ++
        spliceTo text stop edit.span.stop rest

theorem splice_append (text : String) (offset : Nat) (earlier later : List Edit) (edit : Edit) :
    splice text offset (earlier ++ edit :: later) =
      spliceTo text edit.span.start offset earlier ++ edit.replacement ++
        splice text edit.span.stop later := by
  induction earlier generalizing offset with
  | nil => rfl
  | cons first rest inductionHypothesis =>
    rw [List.cons_append, splice, inductionHypothesis, spliceTo]
    simp only [String.append_assoc]

theorem exists_of_applyAll {text result : String} {edits : List Edit}
    (applied : applyAll text edits = .ok result) {edit : Edit} (member : edit ∈ edits) :
    ∃ earlier later, (earlier ++ edit :: later).Perm edits ∧
      result = spliceTo text edit.span.start 0 earlier ++ edit.replacement ++
        splice text edit.span.stop later := by
  unfold applyAll at applied
  split at applied
  · cases applied
  · dsimp only at applied
    split at applied
    · cases applied
    · obtain ⟨earlier, later, sorted⟩ :=
        List.append_of_mem ((Ordered.mem_sort precedes edits).2 member)
      refine ⟨earlier, later, ?_, ?_⟩
      · rw [← sorted]
        exact Ordered.perm_sort precedes edits
      · rw [← splice_append, ← sorted]
        exact (Except.ok.inj applied).symm

/-! ## Batches that can be applied -/

/-- No two edits of the batch share bytes. -/
def Disjoint (edits : List Edit) : Prop :=
  edits.Pairwise fun first second => first.overlaps second = false

instance (edits : List Edit) : Decidable (Disjoint edits) :=
  inferInstanceAs (Decidable (edits.Pairwise _))

@[simp]
theorem span_delete (span : Span) : (delete span).span = span := rfl

theorem inBounds_iff {text : String} {edit : Edit} :
    inBounds text edit = true ↔ edit.span.IsIn text := by
  simp only [inBounds, Bool.and_eq_true, decide_eq_true_eq]
  constructor
  · rintro ⟨⟨⟨ordered, _⟩, start⟩, stop⟩
    exact ⟨ordered, start, stop⟩
  · intro isIn
    exact ⟨⟨⟨isIn.ordered, isIn.stop_le⟩, isIn.start_isBoundary⟩, isIn.stop_isBoundary⟩

theorem overlaps_eq_false_iff {left right : Edit} :
    left.overlaps right = false ↔
      right.span.stop ≤ left.span.start ∨ left.span.stop ≤ right.span.start :=
  Span.overlaps_eq_false_iff

section

variable {edits : List Edit} (forwards : ∀ edit ∈ edits, edit.span.start ≤ edit.span.stop)

include forwards

/-- Neighbours stand one behind the other exactly when all edits do. -/
theorem findOverlap_eq_none_iff :
    findOverlap edits = none ↔
      edits.Pairwise fun first second => first.span.stop ≤ second.span.start := by
  fun_induction findOverlap edits with
  | case1 first second rest overlap =>
    simp only [reduceCtorEq, List.pairwise_cons, false_iff, not_and]
    intro clear
    exact absurd (clear second List.mem_cons_self) (Nat.not_le.2 overlap)
  | case2 first second rest clear inductionHypothesis =>
    have onward := forwards second (by simp)
    rw [inductionHypothesis fun edit member => forwards edit (List.mem_cons_of_mem _ member),
      List.pairwise_cons (a := first)]
    refine ⟨fun later => ⟨List.forall_mem_cons.2 ⟨Nat.not_lt.1 clear, ?_⟩, later⟩, And.right⟩
    intro other member
    -- all others start behind the neighbour, which itself does not run backwards
    have behind := (List.pairwise_cons.1 later).1 other member
    omega
  | case3 edits short =>
    match edits, short with
    | [], _ => simp
    | [_], _ => simp
    | first :: second :: rest, short => exact absurd rfl (short first second rest)

theorem findOverlap_sort_eq_none_iff :
    findOverlap (Ordered.sort precedes edits) = none ↔ Disjoint edits := by
  have perm := Ordered.perm_sort precedes edits
  have sorted := Ordered.pairwise_sort precedes (by simp [precedes]; omega)
    (by simp [precedes]; omega) edits
  have symmetric : ∀ {first second : Edit}, first.overlaps second = false →
      second.overlaps first = false := fun clear => (Span.overlaps_comm _ _).trans clear
  rw [findOverlap_eq_none_iff fun edit member => forwards edit (perm.mem_iff.1 member), Disjoint,
    ← perm.pairwise_iff symmetric]
  constructor
  · exact fun behind => behind.imp fun stops => overlaps_eq_false_iff.2 (.inr stops)
  · intro clear
    refine (sorted.and clear).imp_of_mem fun {first second} member memberThen both => ?_
    have forwardsFirst := forwards first (perm.mem_iff.1 member)
    have forwardsSecond := forwards second (perm.mem_iff.1 memberThen)
    have inOrder := both.1
    have apart := overlaps_eq_false_iff.1 both.2
    simp only [precedes, Bool.or_eq_true, Bool.and_eq_true, decide_eq_true_eq] at inOrder
    omega

end

/-- A batch of edits in the bounds of a text can be applied exactly when no two of them overlap. -/
theorem exists_applyAll_iff {text : String} {edits : List Edit}
    (isIn : ∀ edit ∈ edits, edit.span.IsIn text) :
    (∃ result, applyAll text edits = .ok result) ↔ Disjoint edits := by
  have inBounds : edits.find? (fun edit => !inBounds text edit) = none :=
    List.find?_eq_none.2 fun edit member => by simp [inBounds_iff.2 (isIn edit member)]
  rw [← findOverlap_sort_eq_none_iff fun edit member => (isIn edit member).ordered]
  simp only [applyAll, inBounds]
  cases findOverlap (Ordered.sort precedes edits) <;> simp

/-! ## Choosing -/

theorem keepClear_prefix (kept edits : List Edit) : kept <+: keepClear kept edits := by
  induction edits generalizing kept with
  | nil => exact List.prefix_rfl
  | cons first rest inductionHypothesis =>
    rw [keepClear]
    split
    · exact inductionHypothesis kept
    · exact (List.prefix_append kept [first]).trans (inductionHypothesis _)

/-- Of some edits at least one is kept. -/
theorem outermost_eq_nil_iff {edits : List Edit} : outermost edits = [] ↔ edits = [] := by
  constructor
  · intro none
    unfold outermost at none
    cases sorted : Ordered.sort widerFirst edits with
    | nil =>
      have perm := Ordered.perm_sort widerFirst edits
      rw [sorted] at perm
      exact perm.nil_eq.symm
    -- the first edit overlaps none that is kept, and what is kept once stays
    | cons first rest =>
      rw [sorted, keepClear, List.any_nil] at none
      have kept := keepClear_prefix [first] rest
      rw [if_neg (by decide), List.nil_append] at none
      rw [none] at kept
      simp at kept
  · rintro rfl
    rfl

theorem mem_of_mem_keepClear {kept edits : List Edit} {edit : Edit}
    (member : edit ∈ keepClear kept edits) : edit ∈ kept ∨ edit ∈ edits := by
  fun_induction keepClear kept edits with
  | case1 => exact .inl member
  | case2 kept first rest _ inductionHypothesis =>
    exact (inductionHypothesis member).imp_right (List.mem_cons_of_mem _)
  | case3 kept first rest _ inductionHypothesis =>
    simpa [or_assoc] using inductionHypothesis member

theorem disjoint_keepClear {kept : List Edit} (edits : List Edit) (clear : Disjoint kept) :
    Disjoint (keepClear kept edits) := by
  fun_induction keepClear kept edits with
  | case1 => exact clear
  | case2 kept first rest _ inductionHypothesis => exact inductionHypothesis clear
  | case3 kept first rest apart inductionHypothesis =>
    refine inductionHypothesis (List.pairwise_append.2 ⟨clear, List.pairwise_singleton _ _, ?_⟩)
    intro other member edit single
    rw [List.mem_singleton.1 single]
    have noClash := List.any_eq_false.1 (Bool.eq_false_iff.2 apart) other member
    simp only [clashes, Bool.or_eq_true, not_or] at noClash
    exact Bool.eq_false_iff.2 noClash.1

theorem mem_of_mem_outermost {edits : List Edit} {edit : Edit}
    (member : edit ∈ outermost edits) : edit ∈ edits := by
  rcases mem_of_mem_keepClear member with member | member
  · simp at member
  · exact (Ordered.mem_sort widerFirst edits).1 member

theorem disjoint_outermost (edits : List Edit) : Disjoint (outermost edits) :=
  disjoint_keepClear _ .nil

end CreatorMigration.Edit
