import CreatorMigration.Proofs.Tree.NodeAt

/-! # Members of unions

`Node.unionMembers` goes down from a union, `Node.outermostUnion` goes up from a member.

* `Place.members` are the places of the members, of which `Node.unionMembers` lists the nodes.
* `Place.mem_members_iff`: the members are what is reached by going down through unions only.
* `Place.IsOutermostUnion.exists_parent`: the members of an outermost union lead back to it.
* `Place.IsOutermostUnion.listsMembers` puts these together.
-/

namespace CreatorMigration

namespace Node

mutual

/-- The places of the members of a union, another type is its own only member. -/
def memberPlaces (ancestors before : List Node) : Node → List Place
  | node@⟨kind, _, _, children⟩ =>
      if kind = .unionType then memberPlacesOfAll (node :: ancestors) [] children
      else [⟨node, before, ancestors⟩]

def memberPlacesOfAll (ancestors before : List Node) : List Node → List Place
  | [] => []
  | child :: rest =>
      (if child.isNamed && !child.isComment then memberPlaces ancestors before child else []) ++
        memberPlacesOfAll ancestors (child :: before) rest

end

/-- The places of some siblings. -/
def siblingPlaces (ancestors before : List Node) : List Node → List Place
  | [] => []
  | child :: rest => ⟨child, before, ancestors⟩ :: siblingPlaces ancestors (child :: before) rest

end Node

namespace Place

def members (place : Place) : List Place :=
  place.node.memberPlaces place.ancestors place.before

def childPlaces (place : Place) : List Place :=
  Node.siblingPlaces (place.node :: place.ancestors) [] place.node.children

/-- A union that is no child of a union. -/
structure IsOutermostUnion (place : Place) : Prop where
  isUnion : place.node.kind = .unionType
  outermost : ∀ parent ∈ place.parent?, parent.kind ≠ .unionType

/-- Places that are reached from a union by going down through unions only. -/
inductive Reaches (union : Place) : Place → Prop where
  | child {place : Place} (member : place ∈ union.childPlaces) : Reaches union place
  | through {middle place : Place} (reached : Reaches union middle)
      (isUnion : middle.node.kind = .unionType) (member : place ∈ middle.childPlaces) :
      Reaches union place

end Place

/-! ## In the order of the tree -/

namespace Node

mutual

theorem map_node_memberPlaces {ancestors before : List Node} :
    ∀ node : Node, (memberPlaces ancestors before node).map Place.node = node.unionMembers
  | ⟨kind, role, span, children⟩ => by
    rw [memberPlaces, unionMembers]
    split
    · exact map_node_memberPlacesOfAll children
    · rfl

theorem map_node_memberPlacesOfAll {ancestors before : List Node} :
    ∀ nodes : List Node,
      (memberPlacesOfAll ancestors before nodes).map Place.node = unionMembersOfAll nodes
  | [] => rfl
  | child :: rest => by
    rw [memberPlacesOfAll, unionMembersOfAll, List.map_append, map_node_memberPlacesOfAll rest]
    split
    · rw [map_node_memberPlaces child]
    · rfl

end

mutual

/-- The members of a union stand in the tree in their order. -/
theorem sublist_memberPlaces {ancestors before : List Node} :
    ∀ node : Node, (memberPlaces ancestors before node).Sublist (placesBelow ancestors before node)
  | ⟨kind, role, span, children⟩ => by
    rw [memberPlaces, placesBelow]
    split
    · exact .cons _ (sublist_memberPlacesOfAll children)
    · exact .cons_cons _ (List.nil_sublist _)

theorem sublist_memberPlacesOfAll {ancestors before : List Node} :
    ∀ nodes : List Node,
      (memberPlacesOfAll ancestors before nodes).Sublist (placesOfAll ancestors before nodes)
  | [] => .slnil
  | child :: rest => by
    rw [memberPlacesOfAll, placesOfAll]
    refine List.Sublist.append ?_ (sublist_memberPlacesOfAll rest)
    split
    · exact sublist_memberPlaces child
    · exact List.nil_sublist _

end

mutual

/-- What stands below a place of a tree stands in the tree. -/
theorem sublist_placesBelow {ancestors before : List Node} {place : Place} :
    ∀ {node : Node}, place ∈ placesBelow ancestors before node →
      (placesBelow place.ancestors place.before place.node).Sublist
        (placesBelow ancestors before node)
  | ⟨kind, role, span, children⟩, member => by
    rw [placesBelow, List.mem_cons] at member
    rcases member with rfl | below
    · exact List.Sublist.refl _
    · rw [placesBelow]
      exact .cons _ (sublist_placesOfAll below)

theorem sublist_placesOfAll {ancestors before : List Node} {place : Place} :
    ∀ {nodes : List Node}, place ∈ placesOfAll ancestors before nodes →
      (placesBelow place.ancestors place.before place.node).Sublist
        (placesOfAll ancestors before nodes)
  | [], member => by simp [placesOfAll] at member
  | child :: rest, member => by
    rw [placesOfAll, List.mem_append] at member
    rw [placesOfAll]
    rcases member with first | later
    · exact (sublist_placesBelow first).trans (List.sublist_append_left _ _)
    · exact (sublist_placesOfAll later).trans (List.sublist_append_right _ _)

end

theorem mem_memberPlacesOfAll_iff {ancestors before nodes : List Node} {place : Place} :
    place ∈ memberPlacesOfAll ancestors before nodes ↔
      ∃ child ∈ siblingPlaces ancestors before nodes,
        (child.node.isNamed && !child.node.isComment) = true ∧ place ∈ child.members := by
  induction nodes generalizing before with
  | nil => simp [memberPlacesOfAll, siblingPlaces]
  | cons child rest inductionHypothesis =>
    rw [memberPlacesOfAll, List.mem_append, inductionHypothesis, siblingPlaces]
    simp only [List.exists_mem_cons_iff, Place.members]
    refine or_congr_left ?_
    split <;> simp [*]

theorem ancestors_of_mem_siblingPlaces {ancestors before nodes : List Node} {place : Place}
    (member : place ∈ siblingPlaces ancestors before nodes) :
    place.ancestors = ancestors ∧ place.node ∈ nodes := by
  induction nodes generalizing before with
  | nil => simp [siblingPlaces] at member
  | cons child rest inductionHypothesis =>
    rw [siblingPlaces, List.mem_cons] at member
    rcases member with rfl | later
    · exact ⟨rfl, List.mem_cons_self⟩
    · exact (inductionHypothesis later).imp_right (List.mem_cons_of_mem _)

end Node

namespace Place

variable {union place : Place}

/-! ## Down from a union -/

theorem ancestors_of_mem_childPlaces (member : place ∈ union.childPlaces) :
    place.ancestors = union.node :: union.ancestors ∧ place.node ∈ union.node.children :=
  Node.ancestors_of_mem_siblingPlaces member

theorem members_of_ne (other : place.node.kind ≠ .unionType) : place.members = [place] := by
  obtain ⟨⟨kind, role, span, children⟩, before, ancestors⟩ := place
  rw [members, Node.memberPlaces, if_neg other]

theorem mem_members_of_isUnion (isUnion : union.node.kind = .unionType) :
    place ∈ union.members ↔ ∃ child ∈ union.childPlaces,
      (child.node.isNamed && !child.node.isComment) = true ∧ place ∈ child.members := by
  rw [childPlaces, ← Node.mem_memberPlacesOfAll_iff]
  obtain ⟨⟨kind, role, span, children⟩, before, ancestors⟩ := union
  rw [members, Node.memberPlaces, if_pos isUnion]

theorem isNamed_of_isUnion {node : Node} (isUnion : node.kind = .unionType) :
    (node.isNamed && !node.isComment) = true := by
  rw [Node.isNamed, Node.isComment, isUnion]
  rfl

/-- What is reached from a union that is a child is reached from its parent. -/
theorem Reaches.fromParent {child : Place} (reached : child.Reaches place)
    (isUnion : child.node.kind = .unionType) (member : child ∈ union.childPlaces) :
    union.Reaches place := by
  induction reached with
  | child inner => exact .through (.child member) isUnion inner
  | through _ middle inner inductionHypothesis => exact .through inductionHypothesis middle inner

theorem reaches_of_mem_members (isUnion : union.node.kind = .unionType)
    (member : place ∈ union.members) :
    union.Reaches place ∧ (place.node.isNamed && !place.node.isComment) = true ∧
      place.node.kind ≠ .unionType := by
  induction node : union.node using Node.inductionOnChildren generalizing union with
  | ofChildren _ inductionHypothesis =>
    subst node
    obtain ⟨child, childMember, named, inChild⟩ := (mem_members_of_isUnion isUnion).1 member
    by_cases nested : child.node.kind = .unionType
    · have below := (ancestors_of_mem_childPlaces childMember).2
      obtain ⟨reached, others⟩ := inductionHypothesis child.node below nested inChild rfl
      exact ⟨reached.fromParent nested childMember, others⟩
    · rw [members_of_ne nested, List.mem_singleton] at inChild
      subst inChild
      exact ⟨.child childMember, named, nested⟩

theorem Reaches.members_subset (reached : union.Reaches place)
    (isUnion : union.node.kind = .unionType)
    (named : (place.node.isNamed && !place.node.isComment) = true) :
    place.members ⊆ union.members := by
  induction reached with
  | child member => exact fun inner inPlace =>
      (mem_members_of_isUnion isUnion).2 ⟨_, member, named, inPlace⟩
  | through _ middle member inductionHypothesis =>
    refine List.Subset.trans (fun inner inPlace => ?_)
      (inductionHypothesis (isNamed_of_isUnion middle))
    exact (mem_members_of_isUnion middle).2 ⟨_, member, named, inPlace⟩

/-- The members of a union are the types that are reached from it. -/
theorem mem_members_iff (isUnion : union.node.kind = .unionType) :
    place ∈ union.members ↔ union.Reaches place ∧
      (place.node.isNamed && !place.node.isComment) = true ∧ place.node.kind ≠ .unionType := by
  refine ⟨reaches_of_mem_members isUnion, fun ⟨reached, named, other⟩ => ?_⟩
  refine reached.members_subset isUnion named ?_
  rw [members_of_ne other]
  exact List.mem_singleton.2 rfl

/-! ## Up to a union -/

/-- Between what is reached from a union and the union stand unions only. -/
theorem Reaches.exists_ancestors (reached : union.Reaches place) :
    ∃ between, place.ancestors = between ++ union.node :: union.ancestors ∧
      ∀ node ∈ between, node.kind = .unionType := by
  induction reached with
  | child member => exact ⟨[], (ancestors_of_mem_childPlaces member).1, by simp⟩
  | @through middle place _ isUnion member inductionHypothesis =>
    obtain ⟨between, ancestors, unions⟩ := inductionHypothesis
    refine ⟨middle.node :: between, ?_, List.forall_mem_cons.2 ⟨isUnion, unions⟩⟩
    rw [(ancestors_of_mem_childPlaces member).1, ancestors]
    rfl

theorem outermostUnion_of_ancestors {above between ancestors : List Node} {parent union : Node}
    (split : parent :: above = between ++ union :: ancestors)
    (unions : ∀ node ∈ between, node.kind = .unionType) (isUnion : union.kind = .unionType)
    (outermost : ∀ outer ∈ ancestors.head?, outer.kind ≠ .unionType) :
    parent.kind = .unionType ∧ parent.outermostUnion above = union := by
  induction between generalizing parent above with
  | nil =>
    cases split
    refine ⟨isUnion, ?_⟩
    cases ancestors with
    | nil => rfl
    | cons outer rest => rw [Node.outermostUnion, if_neg (outermost outer rfl)]
  | cons first between inductionHypothesis =>
    rw [List.cons_append] at split
    obtain ⟨rfl, rfl⟩ := List.cons.inj split
    obtain ⟨own, others⟩ := List.forall_mem_cons.1 unions
    cases joined : between ++ union :: ancestors with
    | nil => simp at joined
    | cons next rest =>
      obtain ⟨isNext, same⟩ := inductionHypothesis joined.symm others
      rw [Node.outermostUnion, if_pos isNext]
      exact ⟨own, same⟩

/-- The members of an outermost union lead back to it. -/
theorem IsOutermostUnion.exists_parent (outermost : union.IsOutermostUnion)
    (member : place ∈ union.members) :
    ∃ parent above, place.ancestors = parent :: above ∧ parent.kind = .unionType ∧
      parent.outermostUnion above = union.node := by
  obtain ⟨isUnion, noOuter⟩ := outermost
  obtain ⟨between, ancestors, unions⟩ :=
    (reaches_of_mem_members isUnion member).1.exists_ancestors
  cases isAncestors : place.ancestors with
  | nil => simp [isAncestors] at ancestors
  | cons parent above =>
    rw [isAncestors] at ancestors
    exact ⟨parent, above, rfl, outermostUnion_of_ancestors ancestors unions isUnion noOuter⟩

/-- The members of a union of a tree are the types below it that lead back to it. -/
structure ListsMembers (root : Node) (union : Place) : Prop where
  listed : union.members.map Place.node = union.node.unionMembers
  inOrder : union.members.Sublist root.places
  isMember : ∀ place, place ∈ union.members ↔ union.Reaches place ∧
    (place.node.isNamed && !place.node.isComment) = true ∧ place.node.kind ≠ .unionType
  leadsBack : ∀ place ∈ union.members, ∃ parent above, place.ancestors = parent :: above ∧
    parent.kind = .unionType ∧ parent.outermostUnion above = union.node

/-- In every tree going down from an outermost union and going up to it are about the same nodes. -/
theorem IsOutermostUnion.listsMembers {root : Node} (member : union ∈ root.places)
    (outermost : union.IsOutermostUnion) : union.ListsMembers root where
  listed := Node.map_node_memberPlaces union.node
  inOrder := (Node.sublist_memberPlaces union.node).trans (Node.sublist_placesBelow member)
  isMember _ := mem_members_iff outermost.isUnion
  leadsBack _ := outermost.exists_parent

end Place

/-! ## Members in a text -/

namespace Node

mutual

/-- In a text the members of a union stand one behind the other. -/
theorem IsPlaced.pairwise_memberPlaces {text : String} {ancestors before : List Node} :
    ∀ {node : Node}, node.IsPlaced text →
      (memberPlaces ancestors before node).Pairwise fun left right =>
        left.node.span.stop ≤ right.node.span.start
  | ⟨kind, role, span, children⟩, placed => by
    rw [memberPlaces]
    split
    · exact placed.children.pairwise_memberPlaces
    · exact List.pairwise_singleton _ _

theorem Between.pairwise_memberPlaces {text : String} {ancestors before : List Node}
    {lower upper : Nat} :
    ∀ {nodes : List Node}, Between text lower upper nodes →
      (memberPlacesOfAll ancestors before nodes).Pairwise fun left right =>
        left.node.span.stop ≤ right.node.span.start
  | [], _ => .nil
  | child :: rest, ⟨inOrder, placed⟩ => by
    have childPlaced := placed child List.mem_cons_self
    have behind : Between text child.span.stop upper rest :=
      ⟨inOrder.2.2, fun node member => placed node (List.mem_cons_of_mem _ member)⟩
    rw [memberPlacesOfAll, List.pairwise_append]
    refine ⟨?_, behind.pairwise_memberPlaces, fun left leftMember right rightMember => ?_⟩
    · split
      · exact childPlaced.pairwise_memberPlaces
      · exact .nil
    · have inRest := behind.contains_of_mem_placesOfAll
        ((sublist_memberPlacesOfAll rest).subset rightMember)
      split at leftMember
      · have inChild := childPlaced.contains_of_mem_placesBelow
          ((sublist_memberPlaces child).subset leftMember)
        exact inChild.2.trans inRest.1
      · cases leftMember

end

end Node

end CreatorMigration
