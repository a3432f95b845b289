import CreatorMigration.Proofs.Tree.Leaves
import Mathlib.Data.List.Pairwise

/-! # Places inside of each other

Two places of a tree share bytes only if one of them lies below the other: of the places that
`Node.places` lists, each later one lies below an earlier one or behind it
(`Node.IsPlaced.pairwise_places`). So the spans of a tree are nested.
-/

namespace CreatorMigration

namespace Place

/-- A place that the other one stands around. -/
def IsBelow (place outer : Place) : Prop :=
  ∃ between, place.ancestors = between ++ outer.node :: outer.ancestors

/-- How two places of a tree that share bytes stand to each other. -/
inductive Nests (place outer : Place) : Prop where
  | same (eq : place = outer)
  | below (isBelow : place.IsBelow outer)
  | around (isBelow : outer.IsBelow place)

theorem isBelow_iff_suffix {place outer : Place} :
    place.IsBelow outer ↔ outer.node :: outer.ancestors <:+ place.ancestors :=
  exists_congr fun _ => eq_comm

end Place

namespace Node

variable {text : String}

mutual

/-- What comes later in a tree than a place lies below it or behind it. -/
theorem IsPlaced.pairwise_places {ancestors before : List Node} :
    ∀ {node : Node}, node.IsPlaced text →
      (placesBelow ancestors before node).Pairwise fun left right =>
        right.IsBelow left ∨ left.node.span.stop ≤ right.node.span.start
  | ⟨kind, role, span, children⟩, placed => by
    rw [placesBelow]
    refine .cons (fun place member => .inl ?_) placed.children.pairwise_places
    exact Place.isBelow_iff_suffix.2 (SourceUnit.suffix_of_mem_placesOfAll member)

theorem Between.pairwise_places {ancestors before : List Node} {lower upper : Nat} :
    ∀ {nodes : List Node}, Between text lower upper nodes →
      (placesOfAll ancestors before nodes).Pairwise fun left right =>
        right.IsBelow left ∨ left.node.span.stop ≤ right.node.span.start
  | [], _ => by
    rw [placesOfAll]
    exact .nil
  | child :: rest, ⟨inOrder, placed⟩ => by
    have childPlaced := placed child List.mem_cons_self
    have behind : Between text child.span.stop upper rest :=
      ⟨inOrder.2.2, fun node member => placed node (List.mem_cons_of_mem _ member)⟩
    rw [placesOfAll, List.pairwise_append]
    refine ⟨childPlaced.pairwise_places, behind.pairwise_places, ?_⟩
    intro left leftMember right rightMember
    exact .inr ((childPlaced.contains_of_mem_placesBelow leftMember).2.trans
      (behind.contains_of_mem_placesOfAll rightMember).1)

end

mutual

/-- Whatever stands around a place of a tree is in the tree, or around it, as a place as well. -/
theorem exists_place_of_suffix {ancestors before outer : List Node} {place : Place}
    {ancestor : Node} (around : ancestor :: outer <:+ place.ancestors) :
    ∀ {node : Node}, place ∈ placesBelow ancestors before node →
      ancestor :: outer <:+ ancestors ∨ ∃ own ∈ placesBelow ancestors before node,
        own.node = ancestor ∧ own.ancestors = outer
  | ⟨kind, role, span, children⟩, member => by
    rw [placesBelow, List.mem_cons] at member
    rw [placesBelow]
    rcases member with rfl | below
    · exact .inl around
    · rcases exists_place_of_suffix_all around below with outside | ⟨own, ownMember, same⟩
      · rcases List.suffix_cons_iff.1 outside with here | outside
        · obtain ⟨rfl, rfl⟩ := List.cons.inj here
          exact .inr ⟨_, List.mem_cons_self, rfl, rfl⟩
        · exact .inl outside
      · exact .inr ⟨own, List.mem_cons_of_mem _ ownMember, same⟩

theorem exists_place_of_suffix_all {ancestors before outer : List Node} {place : Place}
    {ancestor : Node} (around : ancestor :: outer <:+ place.ancestors) :
    ∀ {nodes : List Node}, place ∈ placesOfAll ancestors before nodes →
      ancestor :: outer <:+ ancestors ∨ ∃ own ∈ placesOfAll ancestors before nodes,
        own.node = ancestor ∧ own.ancestors = outer
  | [], member => by simp [placesOfAll] at member
  | child :: rest, member => by
    rw [placesOfAll, List.mem_append] at member
    simp only [placesOfAll, List.mem_append]
    rcases member with first | later
    · refine (exists_place_of_suffix around first).imp_right ?_
      exact fun ⟨own, ownMember, same⟩ => ⟨own, .inl ownMember, same⟩
    · refine (exists_place_of_suffix_all around later).imp_right ?_
      exact fun ⟨own, ownMember, same⟩ => ⟨own, .inr ownMember, same⟩

end

mutual

/-- A node with a place below it is no leaf. -/
theorem children_ne_nil_of_mem_ancestors {ancestors before : List Node} {place : Place}
    {ancestor : Node} (around : ancestor ∈ place.ancestors) :
    ∀ {node : Node}, place ∈ placesBelow ancestors before node →
      ancestor ∈ ancestors ∨ ancestor.children ≠ []
  | ⟨kind, role, span, children⟩, member => by
    rw [placesBelow, List.mem_cons] at member
    rcases member with rfl | below
    · exact .inl around
    · rcases children_ne_nil_of_mem_ancestors_all around below with inner | nonempty
      · rcases List.mem_cons.1 inner with rfl | outside
        · refine .inr ?_
          rintro rfl
          simp [placesOfAll] at below
        · exact .inl outside
      · exact .inr nonempty

theorem children_ne_nil_of_mem_ancestors_all {ancestors before : List Node} {place : Place}
    {ancestor : Node} (around : ancestor ∈ place.ancestors) :
    ∀ {nodes : List Node}, place ∈ placesOfAll ancestors before nodes →
      ancestor ∈ ancestors ∨ ancestor.children ≠ []
  | [], member => by simp [placesOfAll] at member
  | child :: rest, member => by
    rw [placesOfAll, List.mem_append] at member
    exact member.elim (children_ne_nil_of_mem_ancestors around)
      (children_ne_nil_of_mem_ancestors_all around)

end

variable {root : Node} {place other : Place}

/-- The nodes around a place of a tree have places themselves. -/
theorem exists_place_of_ancestors {between outer : List Node} {ancestor : Node}
    (member : place ∈ root.places) (split : place.ancestors = between ++ ancestor :: outer) :
    ∃ own ∈ root.places, own.node = ancestor ∧ own.ancestors = outer := by
  have around : ancestor :: outer <:+ place.ancestors := ⟨between, split.symm⟩
  rcases exists_place_of_suffix around member with outside | inside
  · cases List.suffix_nil.1 outside
  · exact inside

theorem not_isBelow_of_leaf (member : place ∈ root.places) (childless : other.node.children = []) :
    ¬ place.IsBelow other := by
  rintro ⟨between, split⟩
  have around : other.node ∈ place.ancestors := by simp [split]
  rcases children_ne_nil_of_mem_ancestors around member with outside | nonempty
  · cases outside
  · exact nonempty childless

namespace IsPlaced

variable (placed : root.IsPlaced text)

include placed

/-- Places that share bytes stand around each other. -/
theorem nests (member : place ∈ root.places) (otherMember : other ∈ root.places)
    (overlap : place.node.span.overlaps other.node.span = true) : place.Nests other := by
  by_cases same : place = other
  · exact .same same
  · have apart : ¬ place.node.span.overlaps other.node.span = false := by simp [overlap]
    rw [Span.overlaps_eq_false_iff, not_or] at apart
    let follows (left right : Place) : Prop :=
      right.IsBelow left ∨ left.node.span.stop ≤ right.node.span.start
    have eitherWay : root.places.Pairwise fun left right =>
        follows left right ∨ follows right left := placed.pairwise_places.imp .inl
    have symmetric : Std.Symm fun left right => follows left right ∨ follows right left :=
      ⟨fun _ _ => Or.symm⟩
    rcases eitherWay.forall member otherMember same with (below | behind) | below | behind
    · exact .around below
    · exact absurd behind apart.2
    · exact .below below
    · exact absurd behind apart.1

theorem contains_of_isBelow (member : place ∈ root.places) (below : place.IsBelow other) :
    other.node.span.contains place.node.span = true := by
  obtain ⟨between, split⟩ := below
  have around : other.node ∈ place.ancestors := by simp [split]
  rcases placed.contains_of_mem_ancestors around member with outside | inside
  · cases outside
  · exact inside.2

/-- The bytes of a leaf lie only in what stands around it. -/
theorem isBelow_of_contains (member : place ∈ root.places) (otherMember : other ∈ root.places)
    (childless : place.node.children = []) (wide : place.node.span.start < place.node.span.stop)
    (contains : other.node.span.contains place.node.span = true) :
    place = other ∨ place.IsBelow other := by
  have overlap : place.node.span.overlaps other.node.span = true := by
    rw [Span.contains_iff] at contains
    simp only [Span.overlaps, Bool.and_eq_true, decide_eq_true_eq]
    omega
  cases placed.nests member otherMember overlap with
  | same eq => exact .inl eq
  | below isBelow => exact .inr isBelow
  | around isBelow => exact absurd isBelow (not_isBelow_of_leaf otherMember childless)

/-- The named node of the bytes of a leaf is the leaf. -/
theorem nodeAt_of_leaf (member : place ∈ root.places) (childless : place.node.children = [])
    (named : place.node.isNamed = true) (wide : place.node.span.start < place.node.span.stop) :
    root.nodeAt place.node.span = place := by
  rw [placed.nodeAt_eq_descendTo member named wide place, descendTo_eq, if_pos named, childless]
  rfl

end IsPlaced

end Node

end CreatorMigration
