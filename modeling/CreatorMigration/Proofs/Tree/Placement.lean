import CreatorMigration.Proofs.Tree.Tokens
import CreatorMigration.Tree.Parse

/-! # Nodes in a text

`Tree.isPlaced_parse` says that the tree of a text fits the text: each node spans characters of the
text, and its children stand in it one behind the other.

* `Node.fits_nodeAt` carries this over to the node at a span and to the nodes around it.
* `Node.IsPlaced.before` says where the siblings of a child stand.
-/

namespace CreatorMigration

/-! ## Trees that fit a text -/

inductive Node.IsPlaced (text : String) : Node → Prop
  | mk {kind : Kind} {role : Option Role} {span : Span} {children : List Node}
      (isIn : span.IsIn text)
      (inOrder : Span.InOrder text span.start span.stop (children.map Node.span))
      (below : ∀ child ∈ children, Node.IsPlaced text child) :
      Node.IsPlaced text ⟨kind, role, span, children⟩

/-- Trees that fit a text and stand in it one behind the other between two offsets. -/
structure Node.Between (text : String) (lower upper : Nat) (nodes : List Node) : Prop where
  inOrder : Span.InOrder text lower upper (nodes.map Node.span)
  placed : ∀ node ∈ nodes, node.IsPlaced text

namespace Node

variable {text : String}

namespace IsPlaced

variable {node : Node}

theorem isIn (placed : node.IsPlaced text) : node.span.IsIn text := by
  cases placed
  assumption

theorem children (placed : node.IsPlaced text) :
    Between text node.span.start node.span.stop node.children := by
  cases placed with
  | mk isIn inOrder below => exact ⟨inOrder, below⟩

theorem child {child : Node} (placed : node.IsPlaced text) (member : child ∈ node.children) :
    child.IsPlaced text :=
  placed.children.placed child member

theorem child? {child : Node} {role : Role} (placed : node.IsPlaced text)
    (found : node.child? role = some child) : child.IsPlaced text :=
  placed.child (List.mem_of_find?_eq_some found)

end IsPlaced

theorem Between.append {lower middle upper : Nat} {nodes later : List Node}
    (front : Between text lower middle nodes) (back : Between text middle upper later) :
    Between text lower upper (nodes ++ later) := by
  refine ⟨?_, List.forall_mem_append.2 ⟨front.placed, back.placed⟩⟩
  rw [List.map_append]
  exact front.inOrder.append back.inOrder

theorem Between.exists_of_append {lower upper : Nat} {nodes later : List Node}
    (placed : Between text lower upper (nodes ++ later)) :
    ∃ middle, Between text lower middle nodes ∧ Between text middle upper later := by
  obtain ⟨inOrder, all⟩ := placed
  rw [List.map_append] at inOrder
  obtain ⟨middle, front, back⟩ := inOrder.exists_of_append
  obtain ⟨allFront, allBack⟩ := List.forall_mem_append.1 all
  exact ⟨middle, ⟨front, allFront⟩, ⟨back, allBack⟩⟩

theorem between_nil {lower upper : Nat} (inOrder : lower ≤ upper) : Between text lower upper [] :=
  ⟨inOrder, by simp⟩

/-- A node without children. -/
theorem isPlaced_leaf {kind : Kind} {role : Option Role} {span : Span} (isIn : span.IsIn text) :
    IsPlaced text ⟨kind, role, span, []⟩ :=
  .mk isIn isIn.ordered (by simp)

end Node

/-! ## Weaving -/

namespace Shape

variable {text : String}

/-- What is woven from the tokens between two offsets: the nodes stand in front of what is left. -/
def Woven.Fits (text : String) (lower upper : Nat) (woven : Woven) : Prop :=
  ∃ middle, Node.Between text lower middle (woven.lead ++ woven.nodes) ∧
    Span.InOrder text middle upper (woven.rest.flatMap Token.spans)

theorem between_commentNodes {lower upper : Nat} {comments : List Comment}
    (inOrder : Span.InOrder text lower upper (comments.map Comment.span)) :
    Node.Between text lower upper (commentNodes comments) := by
  refine ⟨by simpa [commentNodes, commentNode, Function.comp_def] using inOrder, ?_⟩
  intro node member
  obtain ⟨comment, commentMember, rfl⟩ := List.mem_map.1 member
  exact Node.isPlaced_leaf (inOrder.isIn (List.mem_map_of_mem commentMember)).2.1

theorem between_enclose {kind : Kind} {role : Option Role} {lower upper : Nat}
    {nodes : List Node} (placed : Node.Between text lower upper nodes) :
    Node.Between text lower upper (enclose kind role nodes) := by
  cases nodes with
  | nil => exact placed
  | cons first rest =>
    have nonempty : (first :: rest).map Node.span ≠ [] := by simp
    obtain ⟨inside, stops⟩ := placed.inOrder.to_getLast nonempty
    rw [List.getLast_map] at inside stops
    have last := placed.placed _ (List.getLast_mem (List.cons_ne_nil first rest))
    have around : (first.span.through _).IsIn text :=
      inside.2.1.through last.isIn inside.2.2.le
    refine ⟨⟨inside.1, around, stops⟩, List.forall_mem_singleton.2 ?_⟩
    exact .mk around ⟨Nat.le_refl _, inside.2⟩ placed.placed

theorem Woven.fits_followedBy {lower upper : Nat} {first second : Woven} {middle : Nat}
    (front : Node.Between text lower middle (first.lead ++ first.nodes))
    (back : second.Fits text middle upper) : (first.followedBy second).Fits text lower upper := by
  obtain ⟨stop, placed, rest⟩ := back
  refine ⟨stop, ?_, ?_⟩
  · have joined := front.append placed
    unfold followedBy
    split
    · next none => simpa [List.isEmpty_iff.1 none] using joined
    · simpa using joined
  · unfold followedBy
    split <;> exact rest

mutual

theorem fits_weave {lower upper : Nat} {tokens : List Token} {woven : Woven} :
    ∀ shape : Shape, weave shape tokens = some woven →
      Span.InOrder text lower upper (tokens.flatMap Token.spans) → woven.Fits text lower upper
  | leaf kind role, wove, inOrder => by
    cases tokens with
    | nil => cases wove
    | cons token rest =>
      cases wove
      rw [List.flatMap_cons, Token.spans, List.append_assoc] at inOrder
      obtain ⟨middle, comments, others⟩ := inOrder.exists_of_append
      refine ⟨token.span.stop, (between_commentNodes comments).append ⟨?_, ?_⟩, others.2.2⟩
      · exact ⟨others.1, others.2.1, Nat.le_refl _⟩
      · exact List.forall_mem_singleton.2 (Node.isPlaced_leaf others.2.1)
  | missingSemicolon, wove, inOrder => by
    cases tokens with
    | nil => cases wove
    | cons token rest =>
      cases wove
      -- the comments on the line of what was before become nodes, the others stay with the token
      rw [List.flatMap_cons, Token.spans,
        ← Token.span_append (fun comment => !comment.lineBreak) token.comments, List.map_append,
        List.append_assoc, List.append_assoc] at inOrder
      obtain ⟨middle, sameLine, later⟩ := inOrder.exists_of_append
      refine ⟨middle, ?_, ?_⟩
      · rw [List.append_nil]
        exact between_commentNodes sameLine
      · rw [List.flatMap_cons, Token.spans, List.append_assoc]
        exact later
  | finish, wove, inOrder => by
    cases tokens with
    | nil => cases wove
    | cons token rest =>
      cases wove
      rw [List.flatMap_cons, Token.spans, List.append_assoc] at inOrder
      obtain ⟨middle, comments, others⟩ := inOrder.exists_of_append
      refine ⟨middle, ?_, others.2.2.from_le (others.1.trans others.2.1.ordered)⟩
      rw [List.append_nil]
      exact between_commentNodes comments
  | group kind role parts, wove, inOrder => by
    obtain ⟨inner, woveParts, rfl⟩ := Option.map_eq_some_iff.1 wove
    -- only the nodes are enclosed, comments in front of them stand outside
    obtain ⟨middle, placed, rest⟩ := fits_weaveAll parts woveParts inOrder
    obtain ⟨start, lead, nodes⟩ := placed.exists_of_append
    exact ⟨middle, lead.append (between_enclose nodes), rest⟩

theorem fits_weaveAll {lower upper : Nat} {tokens : List Token} {woven : Woven} :
    ∀ shapes : List Shape, weaveAll shapes tokens = some woven →
      Span.InOrder text lower upper (tokens.flatMap Token.spans) → woven.Fits text lower upper
  | [], wove, inOrder => by
    cases wove
    exact ⟨lower, Node.between_nil (Nat.le_refl _), inOrder⟩
  | shape :: shapes, wove, inOrder => by
    obtain ⟨first, woveFirst, others⟩ := Option.bind_eq_some_iff.1 wove
    obtain ⟨second, woveSecond, same⟩ := Option.bind_eq_some_iff.1 others
    cases same
    obtain ⟨middle, front, rest⟩ := fits_weave shape woveFirst inOrder
    exact Woven.fits_followedBy front (fits_weaveAll shapes woveSecond rest)

end

end Shape

/-- The tree of a text fits the text. -/
theorem Tree.isPlaced_parse (text : String) : (Tree.parse text).IsPlaced text := by
  have whole : (⟨0, Text.size text⟩ : Span).IsIn text :=
    ⟨Nat.zero_le _, Text.isBoundary_zero text, Text.isBoundary_size text⟩
  rw [parse]
  cases parsed : parse? text with
  | none => exact Node.isPlaced_leaf whole
  | some root =>
    obtain ⟨tokens, scanned, others⟩ := Option.bind_eq_some_iff.1 parsed
    obtain ⟨⟨parts, _⟩, _, others⟩ := Option.bind_eq_some_iff.1 others
    obtain ⟨woven, wove, others⟩ := Option.bind_eq_some_iff.1 others
    split at others
    · cases others
      obtain ⟨middle, placed, rest⟩ :=
        Shape.fits_weaveAll parts wove (Token.inOrder_of_scan? scanned)
      exact .mk whole (placed.inOrder.to_le rest.le) placed.placed
    · cases others

/-! ## Places -/

/-- The node of a place and all nodes around it fit the text. -/
structure Place.Fits (text : String) (place : Place) : Prop where
  node : place.node.IsPlaced text
  ancestors : ∀ ancestor ∈ place.ancestors, ancestor.IsPlaced text

namespace Node

variable {text : String}

mutual

theorem fits_descendTo {span : Span} {found : Place} {ancestors before : List Node}
    (foundFits : found.Fits text) (around : ∀ ancestor ∈ ancestors, ancestor.IsPlaced text) :
    ∀ node : Node, node.IsPlaced text → (descendTo span found ancestors before node).Fits text
  | ⟨kind, role, own, children⟩, placed => by
    rw [descendTo]
    refine fits_descendInto ?_ (List.forall_mem_cons.2 ⟨placed, around⟩) children
      fun child member => placed.child member
    split
    · exact ⟨placed, around⟩
    · exact foundFits

theorem fits_descendInto {span : Span} {found : Place} {ancestors before : List Node}
    (foundFits : found.Fits text) (around : ∀ ancestor ∈ ancestors, ancestor.IsPlaced text) :
    ∀ children : List Node, (∀ child ∈ children, child.IsPlaced text) →
      (descendInto span found ancestors before children).Fits text
  | [], _ => foundFits
  | child :: rest, placed => by
    rw [descendInto]
    split
    · split
      · exact foundFits
      · exact fits_descendTo foundFits around child (placed child List.mem_cons_self)
    · exact fits_descendInto foundFits around rest fun other member =>
        placed other (List.mem_cons_of_mem _ member)

end

theorem fits_nodeAt {root : Node} (placed : root.IsPlaced text) (span : Span) :
    (root.nodeAt span).Fits text :=
  fits_descendTo ⟨placed, by simp⟩ (by simp) root placed

/-! ## Siblings -/

theorem map_node_childPlaces (root : Node) : root.childPlaces.map Place.node = root.children := by
  have walks (before children : List Node) :
      (childPlaces.go root before children).map Place.node = children := by
    induction children generalizing before with
    | nil => rfl
    | cons child rest inductionHypothesis =>
      rw [childPlaces.go, List.map_cons, inductionHypothesis]
  exact walks [] root.children

/-- A child stands between the siblings in front of it, nearest first, and the others. -/
theorem exists_of_mem_childPlaces {root : Node} {place : Place}
    (member : place ∈ root.childPlaces) :
    ∃ rest, root.children = place.before.reverse ++ place.node :: rest := by
  have walks {before children : List Node} (found : place ∈ childPlaces.go root before children) :
      ∃ rest, before.reverse ++ children = place.before.reverse ++ place.node :: rest := by
    induction children generalizing before with
    | nil => simp [childPlaces.go] at found
    | cons child rest inductionHypothesis =>
      rw [childPlaces.go, List.mem_cons] at found
      rcases found with rfl | found
      · exact ⟨rest, rfl⟩
      · simpa using inductionHypothesis found
  exact walks member

/-- The siblings in front of a child stop in front of it. -/
theorem IsPlaced.before {root sibling : Node} {place : Place} (placed : root.IsPlaced text)
    (member : place ∈ root.childPlaces) (siblingMember : sibling ∈ place.before) :
    sibling.IsPlaced text ∧ sibling.span.stop ≤ place.node.span.start := by
  obtain ⟨rest, split⟩ := exists_of_mem_childPlaces member
  obtain ⟨middle, front, back⟩ := (split ▸ placed.children).exists_of_append
  have inFront : sibling ∈ place.before.reverse := List.mem_reverse.2 siblingMember
  refine ⟨front.placed sibling inFront, ?_⟩
  exact (front.inOrder.isIn (List.mem_map_of_mem inFront)).2.2.trans back.inOrder.1

end Node

end CreatorMigration
