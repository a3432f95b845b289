import CreatorMigration.Tree.Node

/-! # Places of a tree

`Node.Occurs` says that a node stands in a tree, and below which parent. These are the nodes that
`Node.places` lists with their surroundings. What holds of a node and then of the children of every
node holds of all descendants of the node (`Node.forall_descendants`).
-/

namespace CreatorMigration.Node

/-! ## Descendants -/

theorem descendants_eq (root : Node) :
    root.descendants = root :: root.children.flatMap descendants := by
  have all (nodes : List Node) : descendantsOfAll nodes = nodes.flatMap descendants := by
    induction nodes with
    | nil => rfl
    | cons node rest inductionHypothesis =>
      rw [descendantsOfAll, inductionHypothesis, List.flatMap_cons]
  obtain ⟨kind, role, span, children⟩ := root
  rw [descendants, all]

theorem self_mem_descendants (node : Node) : node ∈ node.descendants := by
  rw [descendants_eq]
  exact List.mem_cons_self

theorem mem_descendants_of_child {node child inner : Node} (member : child ∈ node.children)
    (inside : inner ∈ child.descendants) : inner ∈ node.descendants := by
  rw [descendants_eq]
  exact List.mem_cons_of_mem _ (List.mem_flatMap_of_mem member inside)

mutual

/-- What holds of a node as soon as it holds of its children holds of all nodes. -/
theorem inductionOnChildren {motive : Node → Prop}
    (ofChildren : ∀ node : Node, (∀ child ∈ node.children, motive child) → motive node) :
    ∀ node, motive node
  | ⟨_, _, _, children⟩ => ofChildren _ (inductionOnChildren_all ofChildren children)

theorem inductionOnChildren_all {motive : Node → Prop}
    (ofChildren : ∀ node : Node, (∀ child ∈ node.children, motive child) → motive node) :
    ∀ nodes : List Node, ∀ node ∈ nodes, motive node
  | [], node, member => by cases member
  | child :: rest, node, member => by
    cases member with
    | head => exact inductionOnChildren ofChildren child
    | tail _ later => exact inductionOnChildren_all ofChildren rest node later

end

/-- What every node passes on to its children is passed on to all descendants. -/
theorem forall_descendants {holds : Node → Prop}
    (ofParent : ∀ node, holds node → ∀ child ∈ node.children, holds child) {node : Node}
    (own : holds node) : ∀ inner ∈ node.descendants, holds inner := by
  induction node using inductionOnChildren with
  | ofChildren node inductionHypothesis =>
    intro inner member
    rw [descendants_eq, List.mem_cons] at member
    cases member with
    | inl same => exact same ▸ own
    | inr below =>
      obtain ⟨child, childMember, inside⟩ := List.mem_flatMap.1 below
      exact inductionHypothesis child childMember (ofParent node own child childMember) inner inside

theorem descendants_trans {node middle inner : Node} (inside : middle ∈ node.descendants)
    (insideThen : inner ∈ middle.descendants) : inner ∈ node.descendants := by
  have ofParent : ∀ parent : Node, parent.descendants ⊆ node.descendants →
      ∀ child ∈ parent.children, child.descendants ⊆ node.descendants :=
    fun _ inParent _ member _ inChild => inParent (mem_descendants_of_child member inChild)
  exact forall_descendants ofParent (List.Subset.refl node.descendants) middle inside insideThen

/-! ## Occurrences -/

/-- A tree that stands below `above` has the node `inner` below the node `parent?`. -/
inductive Occurs : Option Node → Node → Option Node → Node → Prop where
  | here {above : Option Node} {root : Node} : Occurs above root above root
  | within {above parent? : Option Node} {root child inner : Node} (member : child ∈ root.children)
      (occurs : Occurs (some root) child parent? inner) : Occurs above root parent? inner

mutual

theorem occurs_of_mem_placesBelow {ancestors before : List Node} {place : Place} :
    ∀ {root : Node}, place ∈ placesBelow ancestors before root →
      Occurs ancestors.head? root place.parent? place.node
  | ⟨kind, role, span, children⟩, member => by
    rw [placesBelow, List.mem_cons] at member
    cases member with
    | inl own =>
      subst own
      exact .here
    | inr below =>
      obtain ⟨child, childMember, occurs⟩ := exists_occurs_of_mem_placesOfAll below
      exact .within childMember occurs

theorem exists_occurs_of_mem_placesOfAll {ancestors before : List Node} {place : Place} :
    ∀ {nodes : List Node}, place ∈ placesOfAll ancestors before nodes →
      ∃ child ∈ nodes, Occurs ancestors.head? child place.parent? place.node
  | [], member => by simp [placesOfAll] at member
  | child :: rest, member => by
    rw [placesOfAll, List.mem_append] at member
    cases member with
    | inl first => exact ⟨child, List.mem_cons_self, occurs_of_mem_placesBelow first⟩
    | inr later =>
      obtain ⟨other, otherMember, occurs⟩ := exists_occurs_of_mem_placesOfAll later
      exact ⟨other, List.mem_cons_of_mem _ otherMember, occurs⟩

end

/-- What stands in a child, whatever is in front of the child, stands in the whole list. -/
theorem exists_mem_placesOfAll {ancestors nodes : List Node} {child : Node} {holds : Place → Prop}
    (member : child ∈ nodes) (stands : ∀ before, ∃ place ∈ placesBelow ancestors before child,
      holds place) (before : List Node) :
    ∃ place ∈ placesOfAll ancestors before nodes, holds place := by
  induction nodes generalizing before with
  | nil => simp at member
  | cons first rest inductionHypothesis =>
    rw [placesOfAll]
    cases member with
    | head =>
      obtain ⟨place, placeMember, same⟩ := stands before
      exact ⟨place, List.mem_append_left _ placeMember, same⟩
    | tail _ later =>
      obtain ⟨place, placeMember, same⟩ := inductionHypothesis later (first :: before)
      exact ⟨place, List.mem_append_right _ placeMember, same⟩

theorem Occurs.exists_place {above parent? : Option Node} {root inner : Node}
    (occurs : Occurs above root parent? inner) {ancestors : List Node}
    (below : ancestors.head? = above) (before : List Node) :
    ∃ place ∈ placesBelow ancestors before root, place.parent? = parent? ∧ place.node = inner := by
  induction occurs generalizing ancestors before with
  | @here above root =>
    cases root
    exact ⟨_, List.mem_cons_self, below, rfl⟩
  | @within above parent? root child inner member occurs inductionHypothesis =>
    have inChild (before : List Node) : ∃ place ∈ placesBelow (root :: ancestors) before child,
        place.parent? = parent? ∧ place.node = inner :=
      inductionHypothesis rfl before
    obtain ⟨place, placeMember, same⟩ := exists_mem_placesOfAll member inChild []
    cases root
    exact ⟨place, List.mem_cons_of_mem _ placeMember, same⟩

theorem Occurs.mem_descendants {above parent? : Option Node} {root inner : Node}
    (occurs : Occurs above root parent? inner) : inner ∈ root.descendants := by
  induction occurs with
  | here => exact self_mem_descendants _
  | within member _ inductionHypothesis => exact mem_descendants_of_child member inductionHypothesis

theorem mem_descendants_of_mem_placesBelow {ancestors before : List Node} {root : Node}
    {place : Place} (member : place ∈ placesBelow ancestors before root) :
    place.node ∈ root.descendants :=
  (occurs_of_mem_placesBelow member).mem_descendants

/-- The places of a tree are the occurrences in it. -/
theorem exists_mem_places_iff {root inner : Node} {parent? : Option Node} :
    (∃ place ∈ root.places, place.parent? = parent? ∧ place.node = inner) ↔
      Occurs none root parent? inner := by
  constructor
  · rintro ⟨place, member, rfl, rfl⟩
    exact occurs_of_mem_placesBelow member
  · intro occurs
    exact occurs.exists_place rfl []

end CreatorMigration.Node
