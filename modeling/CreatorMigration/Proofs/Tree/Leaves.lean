import CreatorMigration.Proofs.Tree.Clauses
import CreatorMigration.Proofs.Tree.NodeAt

/-! # Leaves of a tree

Every leaf but a comment is dealt a token of its own, and of the tokens only the one that ends the
text has no bytes.

* `Tree.wide_of_leaf`: the leaves of a tree have bytes.
* `Node.IsPlaced.pairwise_leaves`: a leaf stops in front of whatever comes later in the tree.
* `Node.IsPlaced.mem_ancestors_of_contains`: a node with the bytes of a leaf stands around it.
-/

namespace CreatorMigration

/-! ## Tokens with bytes -/

namespace Token

theorem eq_or_mem_of_mem_dropLast {α : Type} {first element : α} {rest : List α}
    (member : element ∈ (first :: rest).dropLast) : element = first ∨ element ∈ rest.dropLast := by
  cases rest with
  | nil => simp at member
  | cons second rest => simpa using member

theorem wide_of_scanFrom {fuel : Nat} {memory : Memory} {inTemplate : Bool} {position : Position}
    {tokens : List Token} (scanned : scanFrom fuel memory inTemplate position = some tokens) :
    ∀ token ∈ tokens.dropLast, token.span.start < token.span.stop := by
  induction fuel generalizing memory inTemplate position tokens with
  | zero => cases scanned
  | succ fuel inductionHypothesis =>
    obtain ⟨gap, start, _, read⟩ := scanFrom_succ_cases scanned
    rcases read with ⟨_, _, _, rfl⟩ |
      ⟨kind, taken, left, next, rest, _, nonempty, _, scannedRest, rfl⟩
    · simp
    · intro token member
      rcases eq_or_mem_of_mem_dropLast member with rfl | later
      · exact Position.lt_skip left nonempty
      · exact inductionHypothesis scannedRest token later

/-- Only the token that ends a text has no bytes. -/
theorem wide_of_scan? {text : String} {tokens : List Token} (scanned : scan? text = some tokens) :
    ∀ token ∈ tokens.dropLast, token.span.start < token.span.stop := by
  simp only [scan?] at scanned
  split at scanned
  · next token position opened =>
    obtain ⟨rest, scannedRest, rfl⟩ := Option.map_eq_some_iff.1 scanned
    obtain ⟨taken, left, nonempty, _, _, span, _⟩ := exists_of_hashBang? opened
    intro other member
    rcases eq_or_mem_of_mem_dropLast member with rfl | later
    · have wide : (0 : Nat) < 0 + width taken :=
        @Position.lt_skip ⟨0, text.toList⟩ taken left nonempty
      rwa [span, ← Nat.zero_add (width taken)]
    · exact wide_of_scanFrom scannedRest other later
  · exact wide_of_scanFrom scanned

end Token

/-! ## Tokens of leaves -/

/-- The leaves below a node, other than comments, span what is listed. -/
def Node.LeavesIn (spans : List Span) (node : Node) : Prop :=
  ∀ leaf ∈ node.descendants, leaf.children = [] → leaf.isComment = false → leaf.span ∈ spans

namespace Shape

theorem leavesIn_mono {spans more : List Span} (subset : spans ⊆ more) {nodes : List Node}
    (inSpans : ∀ node ∈ nodes, node.LeavesIn spans) : ∀ node ∈ nodes, node.LeavesIn more :=
  fun node member leaf below childless noComment =>
    subset (inSpans node member leaf below childless noComment)

theorem leavesIn_commentNodes (spans : List Span) (comments : List Comment) :
    ∀ node ∈ commentNodes comments, node.LeavesIn spans := by
  intro node member leaf below _ noComment
  obtain ⟨comment, _, rfl⟩ := List.mem_map.1 member
  obtain rfl : leaf = commentNode comment := by simpa [Node.descendants_eq, commentNode] using below
  cases noComment

theorem leavesIn_enclose {spans : List Span} {kind : Kind} {role : Option Role} {nodes : List Node}
    (inSpans : ∀ node ∈ nodes, node.LeavesIn spans) :
    ∀ node ∈ enclose kind role nodes, node.LeavesIn spans := by
  cases nodes with
  | nil => exact inSpans
  | cons first rest =>
    refine List.forall_mem_singleton.2 fun leaf below childless noComment => ?_
    rw [Node.descendants_eq, List.mem_cons] at below
    rcases below with rfl | below
    · cases childless
    · obtain ⟨node, member, inside⟩ := List.mem_flatMap.1 below
      exact inSpans node member leaf inside childless noComment

/-- The leaves of what is woven have spans that are taken off the front of all spans. -/
structure Woven.Takes (spans used rest : List Span) (woven : Woven) : Prop where
  split : spans = used ++ rest
  lead : ∀ node ∈ woven.lead, node.LeavesIn used
  nodes : ∀ node ∈ woven.nodes, node.LeavesIn used

theorem Woven.rest_followedBy (first second : Woven) :
    (first.followedBy second).rest = second.rest := by
  unfold Woven.followedBy
  split <;> rfl

theorem Woven.Takes.followedBy {spans used usedThen middle rest : List Span}
    {first second : Woven} (front : first.Takes spans used middle)
    (back : second.Takes middle usedThen rest) :
    (first.followedBy second).Takes spans (used ++ usedThen) rest := by
  have split : spans = used ++ usedThen ++ rest := by
    rw [front.split, back.split, List.append_assoc]
  have leadFront := leavesIn_mono (List.subset_append_left used usedThen) front.lead
  have nodesFront := leavesIn_mono (List.subset_append_left used usedThen) front.nodes
  have leadBack := leavesIn_mono (List.subset_append_right used usedThen) back.lead
  have nodesBack := leavesIn_mono (List.subset_append_right used usedThen) back.nodes
  unfold Woven.followedBy
  split
  · exact ⟨split, List.forall_mem_append.2 ⟨leadFront, leadBack⟩, nodesBack⟩
  · refine ⟨split, leadFront, ?_⟩
    simp only [List.forall_mem_append]
    exact ⟨⟨nodesFront, leadBack⟩, nodesBack⟩

mutual

theorem exists_takes_weave {tokens : List Token} {woven : Woven} :
    ∀ shape : Shape, weave shape tokens = some woven →
      ∃ used, woven.Takes (tokens.map Token.span) used (woven.rest.map Token.span)
  | leaf kind role, wove => by
    cases tokens with
    | nil => cases wove
    | cons token rest =>
      cases wove
      refine ⟨[token.span], rfl, leavesIn_commentNodes _ _, List.forall_mem_singleton.2 ?_⟩
      intro leaf below _ _
      obtain rfl : leaf = ⟨kind, role, token.span, []⟩ := by
        simpa [Node.descendants_eq] using below
      exact List.mem_singleton.2 rfl
  | missingSemicolon, wove => by
    cases tokens with
    | nil => cases wove
    | cons token rest =>
      cases wove
      exact ⟨[], rfl, leavesIn_commentNodes _ _, by simp⟩
  | finish, wove => by
    cases tokens with
    | nil => cases wove
    | cons token rest =>
      cases wove
      exact ⟨[token.span], rfl, leavesIn_commentNodes _ _, by simp⟩
  | group kind role parts, wove => by
    obtain ⟨inner, woveParts, rfl⟩ := Option.map_eq_some_iff.1 wove
    obtain ⟨used, split, lead, nodes⟩ := exists_takes_weaveAll parts woveParts
    exact ⟨used, split, lead, leavesIn_enclose nodes⟩

theorem exists_takes_weaveAll {tokens : List Token} {woven : Woven} :
    ∀ shapes : List Shape, weaveAll shapes tokens = some woven →
      ∃ used, woven.Takes (tokens.map Token.span) used (woven.rest.map Token.span)
  | [], wove => by
    cases wove
    exact ⟨[], rfl, by simp, by simp⟩
  | shape :: shapes, wove => by
    obtain ⟨first, woveFirst, others⟩ := Option.bind_eq_some_iff.1 wove
    obtain ⟨second, woveSecond, same⟩ := Option.bind_eq_some_iff.1 others
    cases same
    obtain ⟨used, front⟩ := exists_takes_weave shape woveFirst
    obtain ⟨usedThen, back⟩ := exists_takes_weaveAll shapes woveSecond
    rw [Woven.rest_followedBy]
    exact ⟨used ++ usedThen, front.followedBy back⟩

end

/-- The end of a unit takes a token that no leaf spans. -/
theorem exists_takes_of_finish {shapes : List Shape} {tokens : List Token} {woven : Woven}
    (wove : weaveAll (shapes ++ [.finish]) tokens = some woven) :
    ∃ used rest, rest ≠ [] ∧ woven.Takes (tokens.map Token.span) used rest := by
  induction shapes generalizing tokens woven with
  | nil =>
    cases tokens with
    | nil => cases wove
    | cons token rest =>
      cases wove
      refine ⟨[], _, List.cons_ne_nil _ _, rfl, ?_, by simp [Woven.followedBy]⟩
      simpa [Woven.followedBy] using leavesIn_commentNodes [] token.comments
  | cons shape shapes inductionHypothesis =>
    obtain ⟨first, woveFirst, others⟩ := Option.bind_eq_some_iff.1 wove
    obtain ⟨second, woveSecond, same⟩ := Option.bind_eq_some_iff.1 others
    cases same
    obtain ⟨used, front⟩ := exists_takes_weave shape woveFirst
    obtain ⟨usedThen, rest, nonempty, back⟩ := inductionHypothesis woveSecond
    exact ⟨used ++ usedThen, rest, nonempty, front.followedBy back⟩

end Shape

theorem Grammar.yields_finish (fuel : Nat) :
    Yields (fun parts => ∃ shapes, parts = shapes ++ [.finish]) (unitParts fuel) :=
  yields_bind fun _ => yields_bind fun _ => yields_pure ⟨_, rfl⟩

/-- The leaves of a statement have bytes, but for comments. -/
theorem Tree.wide_of_leaf_of_mem_children {text : String} {statement leaf : Node}
    (member : statement ∈ (parse text).children) (inside : leaf ∈ statement.descendants)
    (childless : leaf.children = []) (noComment : leaf.isComment = false) :
    leaf.span.start < leaf.span.stop := by
  obtain ⟨tokens, parts, rest, woven, scanned, read, wove, within⟩ :=
    exists_woven_of_mem_children member
  obtain ⟨shapes, rfl⟩ := Grammar.yields_finish _ _ _ _ read
  obtain ⟨used, left, nonempty, takes⟩ := Shape.exists_takes_of_finish wove
  have inUsed : leaf.span ∈ used :=
    (List.mem_append.1 within).elim (takes.lead statement) (takes.nodes statement) leaf inside
      childless noComment
  -- the token without bytes is the last one, which the end of the unit takes
  have inTokens : leaf.span ∈ tokens.dropLast.map Token.span := by
    rw [List.map_dropLast, takes.split, List.dropLast_append_of_ne_nil nonempty]
    exact List.mem_append_left _ inUsed
  obtain ⟨token, tokenMember, same⟩ := List.mem_map.1 inTokens
  exact same ▸ Token.wide_of_scan? scanned token tokenMember

/-- The leaves of a tree have bytes, but for comments and for the root of an empty tree. -/
theorem Tree.wide_of_leaf {text : String} {leaf : Node} (member : leaf ∈ (parse text).descendants)
    (childless : leaf.children = []) (noComment : leaf.isComment = false)
    (noRoot : leaf.kind ≠ .program) : leaf.span.start < leaf.span.stop := by
  rw [Node.descendants_eq, List.mem_cons] at member
  rcases member with rfl | below
  · exact absurd (SourceUnit.kind_tree (.ofText ⟨""⟩ text)) noRoot
  · obtain ⟨statement, statementMember, inside⟩ := List.mem_flatMap.1 below
    exact wide_of_leaf_of_mem_children statementMember inside childless noComment

namespace Node

variable {text : String}

/-! ## Leaves and what stands around them -/

mutual

/-- A leaf stops in front of all that comes later in the tree. -/
theorem IsPlaced.pairwise_leaves {ancestors before : List Node} :
    ∀ {node : Node}, node.IsPlaced text →
      (placesBelow ancestors before node).Pairwise fun left right =>
        left.node.children = [] → left.node.span.stop ≤ right.node.span.start
  | ⟨kind, role, span, []⟩, _ => by
    rw [placesBelow, placesOfAll]
    exact List.pairwise_singleton _ _
  | ⟨kind, role, span, first :: rest⟩, placed => by
    rw [placesBelow]
    refine .cons (fun place member childless => ?_) placed.children.pairwise_leaves
    cases childless

theorem Between.pairwise_leaves {ancestors before : List Node} {lower upper : Nat} :
    ∀ {nodes : List Node}, Between text lower upper nodes →
      (placesOfAll ancestors before nodes).Pairwise fun left right =>
        left.node.children = [] → left.node.span.stop ≤ right.node.span.start
  | [], _ => by
    rw [placesOfAll]
    exact .nil
  | child :: rest, ⟨inOrder, placed⟩ => by
    have childPlaced := placed child List.mem_cons_self
    have behind : Between text child.span.stop upper rest :=
      ⟨inOrder.2.2, fun node member => placed node (List.mem_cons_of_mem _ member)⟩
    rw [placesOfAll, List.pairwise_append]
    refine ⟨childPlaced.pairwise_leaves, behind.pairwise_leaves, ?_⟩
    intro left leftMember right rightMember _
    exact (childPlaced.contains_of_mem_placesBelow leftMember).2.trans
      (behind.contains_of_mem_placesOfAll rightMember).1

end

mutual

/-- What stands around a place below a node, other than what stands around the node, is in the tree
and spans the bytes of the place. -/
theorem IsPlaced.contains_of_mem_ancestors {ancestors before : List Node} {place : Place}
    {ancestor : Node} (around : ancestor ∈ place.ancestors) :
    ∀ {node : Node}, node.IsPlaced text → place ∈ placesBelow ancestors before node →
      ancestor ∈ ancestors ∨ ancestor ∈ node.descendants ∧
        ancestor.span.contains place.node.span = true
  | ⟨kind, role, span, children⟩, placed, member => by
    rw [placesBelow, List.mem_cons] at member
    rcases member with rfl | below
    · exact .inl around
    · have inside := placed.children.contains_of_mem_placesOfAll below
      rcases placed.children.contains_of_mem_ancestors around below with outer | inner
      · rcases List.mem_cons.1 outer with rfl | outer
        · refine .inr ⟨self_mem_descendants _, ?_⟩
          simpa [Span.contains] using inside
        · exact .inl outer
      · obtain ⟨child, childMember, found, contains⟩ := inner
        exact .inr ⟨mem_descendants_of_child childMember found, contains⟩

theorem Between.contains_of_mem_ancestors {ancestors before : List Node} {place : Place}
    {ancestor : Node} {lower upper : Nat} (around : ancestor ∈ place.ancestors) :
    ∀ {nodes : List Node}, Between text lower upper nodes →
      place ∈ placesOfAll ancestors before nodes →
      ancestor ∈ ancestors ∨ ∃ node ∈ nodes, ancestor ∈ node.descendants ∧
        ancestor.span.contains place.node.span = true
  | [], _, member => by simp [placesOfAll] at member
  | child :: rest, ⟨inOrder, placed⟩, member => by
    rw [placesOfAll, List.mem_append] at member
    rcases member with first | later
    · exact ((placed child List.mem_cons_self).contains_of_mem_ancestors around first).imp_right
        fun inner => ⟨child, List.mem_cons_self, inner⟩
    · have behind : Between text child.span.stop upper rest :=
        ⟨inOrder.2.2, fun node member => placed node (List.mem_cons_of_mem _ member)⟩
      refine (behind.contains_of_mem_ancestors around later).imp_right ?_
      rintro ⟨node, nodeMember, inner⟩
      exact ⟨node, List.mem_cons_of_mem _ nodeMember, inner⟩

end

/-- A node below another one spans bytes of it. -/
theorem IsPlaced.contains_of_mem_descendants {node inner : Node} (placed : node.IsPlaced text)
    (inside : inner ∈ node.descendants) :
    node.span.start ≤ inner.span.start ∧ inner.span.stop ≤ node.span.stop := by
  have ofParent : ∀ parent : Node, (parent.IsPlaced text ∧
      node.span.start ≤ parent.span.start ∧ parent.span.stop ≤ node.span.stop) →
      ∀ child ∈ parent.children, child.IsPlaced text ∧
        node.span.start ≤ child.span.start ∧ child.span.stop ≤ node.span.stop := by
    rintro parent ⟨parentPlaced, start, stop⟩ child member
    have inParent := parentPlaced.children.inOrder.isIn (List.mem_map_of_mem member)
    exact ⟨parentPlaced.child member, start.trans inParent.1, inParent.2.2.trans stop⟩
  exact (forall_descendants ofParent ⟨placed, Nat.le_refl _, Nat.le_refl _⟩ inner inside).2

mutual

/-- A node with all bytes of a leaf is that leaf or stands around it. -/
theorem IsPlaced.mem_ancestors_of_contains {ancestors before : List Node} {place : Place}
    {outer : Node} (childless : place.node.children = [])
    (wide : place.node.span.start < place.node.span.stop)
    (contains : outer.span.contains place.node.span = true) :
    ∀ {node : Node}, node.IsPlaced text → place ∈ placesBelow ancestors before node →
      outer ∈ node.descendants → outer = place.node ∨ outer ∈ place.ancestors
  | ⟨kind, role, span, children⟩, placed, member, inTree => by
    rw [placesBelow, List.mem_cons] at member
    rw [descendants_eq, List.mem_cons] at inTree
    rcases member with rfl | below
    · cases childless
      exact .inl (by simpa using inTree)
    · rcases inTree with rfl | inTree
      · exact .inr ((SourceUnit.suffix_of_mem_placesOfAll below).subset List.mem_cons_self)
      · exact placed.children.mem_ancestors_of_contains childless wide contains below inTree

theorem Between.mem_ancestors_of_contains {ancestors before : List Node} {place : Place}
    {outer : Node} {lower upper : Nat} (childless : place.node.children = [])
    (wide : place.node.span.start < place.node.span.stop)
    (contains : outer.span.contains place.node.span = true) :
    ∀ {nodes : List Node}, Between text lower upper nodes →
      place ∈ placesOfAll ancestors before nodes → outer ∈ nodes.flatMap descendants →
      outer = place.node ∨ outer ∈ place.ancestors
  | [], _, member, _ => by simp [placesOfAll] at member
  | child :: rest, ⟨inOrder, placed⟩, member, inTree => by
    have childPlaced := placed child List.mem_cons_self
    have behind : Between text child.span.stop upper rest :=
      ⟨inOrder.2.2, fun node member => placed node (List.mem_cons_of_mem _ member)⟩
    rw [placesOfAll, List.mem_append] at member
    rw [List.flatMap_cons, List.mem_append] at inTree
    have bytes : outer.span.start ≤ place.node.span.start ∧
        place.node.span.stop ≤ outer.span.stop := by simpa [Span.contains] using contains
    -- a node of another child has none of the bytes of the place
    rcases member with first | later
    · have inChild := childPlaced.contains_of_mem_placesBelow first
      rcases inTree with here | there
      · exact childPlaced.mem_ancestors_of_contains childless wide contains first here
      · obtain ⟨node, nodeMember, inNode⟩ := List.mem_flatMap.1 there
        have inOther := (behind.placed node nodeMember).contains_of_mem_descendants inNode
        have start := (behind.inOrder.isIn (List.mem_map_of_mem nodeMember)).1
        omega
    · have inRest := behind.contains_of_mem_placesOfAll later
      rcases inTree with here | there
      · have inChild := childPlaced.contains_of_mem_descendants here
        omega
      · exact behind.mem_ancestors_of_contains childless wide contains later there

end

end Node

end CreatorMigration
