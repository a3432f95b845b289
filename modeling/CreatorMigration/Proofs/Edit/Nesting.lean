import CreatorMigration.Proofs.Edit
import Mathlib.Data.Finset.Lattice.Fold
import Mathlib.Data.Finset.Max
import Mathlib.Order.Lattice.Nat

/-! # Spans inside of each other

`Span.nesting` says how deep the spans of a list lie in each other, and `Span.covered` leaves out
those that lie in no other one. What is covered is nested less deep (`nesting_covered_lt`), so
spans that are taken away from the outside are used up after as many steps.
-/

namespace CreatorMigration.Span

/-- The spans of a list around a span, itself included if it is one of them. -/
def around (spans : List Span) (inner : Span) : Finset Span :=
  spans.toFinset.filter fun outer => outer.contains inner = true

/-- The most spans that lie in each other around one of them. -/
def nesting (spans : List Span) : Nat :=
  spans.toFinset.sup fun inner => (around spans inner).card

/-- The spans that lie inside of another one. -/
def covered (spans : List Span) : List Span :=
  spans.filter fun inner => spans.any fun outer => outer.contains inner && outer != inner

variable {spans : List Span} {inner outer : Span}

theorem mem_around : outer ∈ around spans inner ↔ outer ∈ spans ∧ outer.contains inner = true := by
  rw [around, Finset.mem_filter, List.mem_toFinset]

theorem mem_covered :
    inner ∈ covered spans ↔
      inner ∈ spans ∧ ∃ outer ∈ spans, outer.contains inner = true ∧ outer ≠ inner := by
  simp [covered]

theorem contains_refl (span : Span) : span.contains span = true :=
  contains_iff.2 ⟨Nat.le_refl _, Nat.le_refl _⟩

theorem contains_trans {middle : Span} (first : outer.contains middle = true)
    (second : middle.contains inner = true) : outer.contains inner = true := by
  rw [contains_iff] at *
  omega

theorem around_covered_subset : around (covered spans) inner ⊆ around spans inner := by
  intro outer member
  obtain ⟨isCovered, contains⟩ := mem_around.1 member
  exact mem_around.2 ⟨(mem_covered.1 isCovered).1, contains⟩

/-- The widest of the spans around a span lies in no other one. -/
theorem card_around_covered_lt (member : inner ∈ spans) :
    (around (covered spans) inner).card < (around spans inner).card := by
  have some : (around spans inner).Nonempty := ⟨inner, mem_around.2 ⟨member, contains_refl inner⟩⟩
  obtain ⟨widest, widestMember, isWidest⟩ :=
    Finset.exists_max_image _ (fun span : Span => (span.stop : Int) - span.start) some
  refine Finset.card_lt_card ⟨around_covered_subset, fun all => ?_⟩
  obtain ⟨isCovered, _⟩ := mem_around.1 (all widestMember)
  obtain ⟨_, outer, outerMember, contains, different⟩ := mem_covered.1 isCovered
  have outerAround : outer ∈ around spans inner :=
    mem_around.2 ⟨outerMember, contains_trans contains (mem_around.1 widestMember).2⟩
  have notWider := isWidest outer outerAround
  rw [contains_iff] at contains
  exact different (eq_of_offsets (by omega) (by omega))

theorem nesting_pos (some : spans ≠ []) : 0 < nesting spans := by
  obtain ⟨inner, member⟩ := List.exists_mem_of_ne_nil spans some
  have isAround : inner ∈ around spans inner := mem_around.2 ⟨member, contains_refl inner⟩
  calc 0 < (around spans inner).card := Finset.card_pos.2 ⟨inner, isAround⟩
    _ ≤ nesting spans :=
      Finset.le_sup (f := fun inner => (around spans inner).card) (List.mem_toFinset.2 member)

theorem nesting_eq_zero_iff : nesting spans = 0 ↔ spans = [] := by
  constructor
  · intro none
    by_contra some
    exact absurd none (nesting_pos some).ne'
  · rintro rfl
    rfl

/-- Without the spans that lie in no other one the rest is nested less deep. -/
theorem nesting_covered_lt (some : spans ≠ []) : nesting (covered spans) < nesting spans := by
  refine (Finset.sup_lt_iff (nesting_pos some)).2 fun inner member => ?_
  have inSpans : inner ∈ spans := (mem_covered.1 (List.mem_toFinset.1 member)).1
  calc (around (covered spans) inner).card
      < (around spans inner).card := card_around_covered_lt inSpans
    _ ≤ nesting spans :=
      Finset.le_sup (f := fun inner => (around spans inner).card) (List.mem_toFinset.2 inSpans)

end CreatorMigration.Span
