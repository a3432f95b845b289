import CreatorMigration.Proofs.Tree.LeftEdge
import CreatorMigration.Proofs.Unit.Code

/-! # The node at the span of a node

`Node.nodeAt` leads back to a node: on its way to the bytes of a place it comes by that place
(`Node.IsPlaced.nodeAt_eq_descendTo`), and below it goes only along first children with all of the
bytes. So it finds alike nodes in alike trees, wherever these stand in their texts
(`SourceUnit.exists_alikeWithin_nodeAt`).
-/

namespace CreatorMigration

open List (Forall₂)

namespace Node

/-! ## Going down -/

section

variable {span : Span} {found : Place} {ancestors before : List Node}

theorem reaches_iff {node : Node} (wide : span.start < span.stop) :
    node.reaches span = true ↔ span.stop ≤ node.span.stop := by
  unfold reaches
  split <;> simp only [Bool.and_eq_true, decide_eq_true_eq] <;> omega

theorem descendTo_eq (node : Node) :
    descendTo span found ancestors before node =
      descendInto span (if node.isNamed then ⟨node, before, ancestors⟩ else found)
        (node :: ancestors) [] node.children := by
  obtain ⟨kind, role, own, children⟩ := node
  rw [descendTo]

theorem descendInto_of_reaches {child : Node} {rest : List Node}
    (wide : span.start < span.stop) (stop : span.stop ≤ child.span.stop)
    (start : child.span.start ≤ span.start) :
    descendInto span found ancestors before (child :: rest) =
      descendTo span found ancestors before child := by
  rw [descendInto, if_pos ((reaches_iff wide).2 stop), if_neg (Nat.not_lt.2 start)]

theorem descendInto_of_stop_lt {child : Node} {rest : List Node}
    (wide : span.start < span.stop) (stop : child.span.stop < span.stop) :
    descendInto span found ancestors before (child :: rest) =
      descendInto span found ancestors (child :: before) rest := by
  rw [descendInto, if_neg fun reaches => absurd ((reaches_iff wide).1 reaches) (by omega)]

/-- The search ends in front of nodes that start behind the span does. -/
theorem descendInto_of_start_lt {nodes : List Node}
    (behind : ∀ node ∈ nodes, span.start < node.span.start) :
    descendInto span found ancestors before nodes = found := by
  induction nodes generalizing before with
  | nil => rfl
  | cons child rest inductionHypothesis =>
    obtain ⟨childBehind, restBehind⟩ := List.forall_mem_cons.1 behind
    rw [descendInto, if_pos childBehind, inductionHypothesis restBehind, ite_self]

end

/-! ## Places in a text -/

section

variable {text : String}

mutual

/-- A place below a node spans bytes of the node. -/
theorem IsPlaced.contains_of_mem_placesBelow {ancestors before : List Node} {place : Place} :
    ∀ {node : Node}, node.IsPlaced text → place ∈ placesBelow ancestors before node →
      node.span.start ≤ place.node.span.start ∧ place.node.span.stop ≤ node.span.stop
  | ⟨kind, role, span, children⟩, placed, member => by
    rw [placesBelow, List.mem_cons] at member
    rcases member with rfl | below
    · exact ⟨Nat.le_refl _, Nat.le_refl _⟩
    · exact placed.children.contains_of_mem_placesOfAll below

theorem Between.contains_of_mem_placesOfAll {ancestors before : List Node} {place : Place}
    {lower upper : Nat} :
    ∀ {nodes : List Node}, Between text lower upper nodes →
      place ∈ placesOfAll ancestors before nodes →
      lower ≤ place.node.span.start ∧ place.node.span.stop ≤ upper
  | [], _, member => by simp [placesOfAll] at member
  | child :: rest, ⟨inOrder, placed⟩, member => by
    rw [placesOfAll, List.mem_append] at member
    obtain ⟨start, childIn, others⟩ := inOrder
    rcases member with first | later
    · have inside := (placed child List.mem_cons_self).contains_of_mem_placesBelow first
      exact ⟨start.trans inside.1, inside.2.trans others.le⟩
    · have behind : Between text child.span.stop upper rest :=
        ⟨others, fun node member => placed node (List.mem_cons_of_mem _ member)⟩
      have inside := behind.contains_of_mem_placesOfAll later
      exact ⟨start.trans (childIn.ordered.trans inside.1), inside.2⟩

end

mutual

/-- The siblings in front of a place below a node stop in front of the place, if those in front of the
node do. -/
theorem IsPlaced.before_of_mem_placesBelow {ancestors before : List Node} {place : Place} :
    ∀ {node : Node}, node.IsPlaced text →
      (∀ sibling ∈ before, sibling.IsPlaced text ∧ sibling.span.stop ≤ node.span.start) →
      place ∈ placesBelow ancestors before node →
      ∀ sibling ∈ place.before,
        sibling.IsPlaced text ∧ sibling.span.stop ≤ place.node.span.start
  | ⟨kind, role, span, children⟩, placed, inFront, member => by
    rw [placesBelow, List.mem_cons] at member
    rcases member with rfl | below
    · exact inFront
    · exact placed.children.before_of_mem_placesOfAll (by simp) below

theorem Between.before_of_mem_placesOfAll {ancestors before : List Node} {place : Place}
    {lower upper : Nat} :
    ∀ {nodes : List Node}, Between text lower upper nodes →
      (∀ sibling ∈ before, sibling.IsPlaced text ∧ sibling.span.stop ≤ lower) →
      place ∈ placesOfAll ancestors before nodes →
      ∀ sibling ∈ place.before,
        sibling.IsPlaced text ∧ sibling.span.stop ≤ place.node.span.start
  | [], _, _, member => by simp [placesOfAll] at member
  | child :: rest, ⟨inOrder, placed⟩, inFront, member => by
    rw [placesOfAll, List.mem_append] at member
    obtain ⟨start, childIn, others⟩ := inOrder
    have own := placed child List.mem_cons_self
    rcases member with first | later
    · exact own.before_of_mem_placesBelow
        (fun sibling member => (inFront sibling member).imp_right (Nat.le_trans · start)) first
    · have behind : Between text child.span.stop upper rest :=
        ⟨others, fun node member => placed node (List.mem_cons_of_mem _ member)⟩
      refine behind.before_of_mem_placesOfAll (List.forall_mem_cons.2 ⟨⟨own, Nat.le_refl _⟩, ?_⟩) later
      intro sibling member
      exact (inFront sibling member).imp_right fun stop => stop.trans (start.trans childIn.ordered)

end

mutual

/-- The search for the bytes of a place comes by the place. -/
theorem IsPlaced.exists_descendTo {ancestors before : List Node} {place : Place}
    (wide : place.node.span.start < place.node.span.stop) :
    ∀ {node : Node}, node.IsPlaced text → place ∈ placesBelow ancestors before node →
      ∀ found, ∃ foundThen, descendTo place.node.span found ancestors before node =
        descendTo place.node.span foundThen place.ancestors place.before place.node
  | ⟨kind, role, span, children⟩, placed, member, found => by
    rw [placesBelow, List.mem_cons] at member
    rcases member with rfl | below
    · exact ⟨found, rfl⟩
    · rw [descendTo]
      exact placed.children.exists_descendInto wide below _

theorem Between.exists_descendInto {ancestors before : List Node} {place : Place}
    {lower upper : Nat} (wide : place.node.span.start < place.node.span.stop) :
    ∀ {nodes : List Node}, Between text lower upper nodes →
      place ∈ placesOfAll ancestors before nodes →
      ∀ found, ∃ foundThen, descendInto place.node.span found ancestors before nodes =
        descendTo place.node.span foundThen place.ancestors place.before place.node
  | [], _, member, _ => by simp [placesOfAll] at member
  | child :: rest, ⟨inOrder, placed⟩, member, found => by
    rw [placesOfAll, List.mem_append] at member
    have childPlaced := placed child List.mem_cons_self
    rcases member with first | later
    · obtain ⟨start, stop⟩ := childPlaced.contains_of_mem_placesBelow first
      rw [descendInto_of_reaches wide stop start]
      exact childPlaced.exists_descendTo wide first found
    · have behind : Between text child.span.stop upper rest :=
        ⟨inOrder.2.2, fun node member => placed node (List.mem_cons_of_mem _ member)⟩
      have inside := behind.contains_of_mem_placesOfAll later
      rw [descendInto_of_stop_lt wide (by omega)]
      exact behind.exists_descendInto wide later found

end

/-- The search for the bytes of a named place goes on below the place, if anywhere. -/
theorem IsPlaced.nodeAt_eq_descendTo {root : Node} (placed : root.IsPlaced text) {place : Place}
    (member : place ∈ root.places) (named : place.node.isNamed = true)
    (wide : place.node.span.start < place.node.span.stop) (found : Place) :
    root.nodeAt place.node.span =
      descendTo place.node.span found place.ancestors place.before place.node := by
  obtain ⟨foundThen, same⟩ := placed.exists_descendTo wide member ⟨root, [], []⟩
  rw [nodeAt, same, descendTo_eq, descendTo_eq, if_pos named, if_pos named]

end

/-! ## Alike places with what stands around them -/

/-- The nodes around a place are alike, but for the root of the tree. -/
def AlikeUpToRoot (text textThen : String) (node other : Node) : Prop :=
  Alike text textThen node other ∨ node.kind = .program ∧ other.kind = .program

/-- Alike nodes inside of alike nodes. -/
structure AlikeWithin (text textThen : String) (place other : Place) : Prop where
  node : Alike text textThen place.node other.node
  ancestors : Forall₂ (AlikeUpToRoot text textThen) place.ancestors other.ancestors

section

variable {text textThen : String}

theorem AlikeUpToRoot.kind_eq {node other : Node} (same : AlikeUpToRoot text textThen node other) :
    node.kind = other.kind :=
  same.elim Alike.kind_eq fun root => root.1.trans root.2.symm

theorem AlikeWithin.isInside_eq {place other : Place}
    (same : AlikeWithin text textThen place other) (kind : Kind) :
    place.isInside kind = other.isInside kind := by
  have related : Option.Rel (AlikeUpToRoot text textThen) (place.ancestorOfKind? kind)
      (other.ancestorOfKind? kind) :=
    rel_find? same.ancestors fun _ _ alike => by rw [alike.kind_eq]
  unfold Place.isInside
  generalize place.ancestorOfKind? kind = around at related
  generalize other.ancestorOfKind? kind = otherAround at related
  cases related <;> rfl

mutual

theorem forall₂_alikeWithin_placesBelow {ancestors others before beforeThen : List Node}
    (around : Forall₂ (AlikeUpToRoot text textThen) ancestors others) :
    ∀ {node other : Node}, Alike text textThen node other →
      Forall₂ (AlikeWithin text textThen) (placesBelow ancestors before node)
        (placesBelow others beforeThen other)
  | ⟨_, _, _, _⟩, ⟨_, _, _, _⟩, same => by
    rw [placesBelow, placesBelow]
    exact .cons ⟨same, around⟩
      (forall₂_alikeWithin_placesOfAll (.cons (.inl same) around) same.children)

theorem forall₂_alikeWithin_placesOfAll {ancestors others before beforeThen : List Node}
    (around : Forall₂ (AlikeUpToRoot text textThen) ancestors others) :
    ∀ {nodes nodesThen : List Node}, Forall₂ (Alike text textThen) nodes nodesThen →
      Forall₂ (AlikeWithin text textThen) (placesOfAll ancestors before nodes)
        (placesOfAll others beforeThen nodesThen)
  | [], [], _ => .nil
  | _ :: _, _ :: _, .cons first rest => by
    rw [placesOfAll, placesOfAll]
    exact List.rel_append (forall₂_alikeWithin_placesBelow around first)
      (forall₂_alikeWithin_placesOfAll around rest)

end

/-- Alike nodes have equally many bytes. -/
theorem Alike.width_eq {node other : Node} (same : Alike text textThen node other)
    (isIn : node.span.IsIn text) (isInThen : other.span.IsIn textThen) :
    node.span.stop - node.span.start = other.span.stop - other.span.start := by
  rw [← isIn.size_slice, ← isInThen.size_slice]
  exact congrArg Text.size same.textIn_eq

end

/-! ## Alike nodes at the spans of alike nodes -/

/-- A node that fits its text and starts with its first child. -/
structure IsSound (text : String) (node : Node) : Prop where
  placed : node.IsPlaced text
  tight : node.IsTight text

section

variable {text textThen : String}

theorem IsSound.child {node child : Node} (sound : node.IsSound text)
    (member : child ∈ node.children) : child.IsSound text :=
  ⟨sound.placed.child member, sound.tight.child member⟩

theorem IsSound.below {node inner : Node} (sound : node.IsSound text)
    (inside : inner ∈ node.descendants) : inner.IsSound text :=
  forall_descendants (fun _ sound _ member => sound.child member) sound inner inside

/-- A first child stands where its parent starts, and the other children start behind it. -/
theorem IsSound.first {node first : Node} {rest : List Node} (sound : node.IsSound text)
    (wide : node.span.start < node.span.stop) (children : node.children = first :: rest) :
    first.span.start = node.span.start ∧ first.span.start < first.span.stop ∧
      first.span.stop ≤ node.span.stop ∧ ∀ child ∈ rest, node.span.start < child.span.start := by
  obtain ⟨placed, tight⟩ := sound
  have inOrder := placed.children.inOrder
  have size := placed.isIn.stop_le
  cases tight with
  | leaf => cases children
  | @inner kind role span _ _ start below =>
    cases children
    obtain ⟨_, isIn, others⟩ := inOrder
    obtain ⟨sameStart, leftmost⟩ := (below first List.mem_cons_self).leftmost
    have firstPlaced : first.IsPlaced text := placed.child List.mem_cons_self
    have inside := firstPlaced.leftmost.2
    have firstWide : first.span.start < first.span.stop := by
      dsimp only at start size wide
      rcases leftmost with bytes | atEnd
      · omega
      · omega
    refine ⟨start.symm, firstWide, others.le, fun child member => ?_⟩
    have behind := (others.isIn (List.mem_map_of_mem member)).1
    dsimp only at start ⊢
    omega

/-- Below a node its own bytes are found only along first children that have all of them. -/
theorem alikeWithin_descendTo {found foundThen : Place} {node other : Node}
    {ancestors others before beforeThen : List Node} (same : Alike text textThen node other)
    (sound : node.IsSound text) (soundThen : other.IsSound textThen)
    (wide : node.span.start < node.span.stop)
    (around : Forall₂ (AlikeUpToRoot text textThen) ancestors others)
    (sameFound : AlikeWithin text textThen found foundThen) :
    AlikeWithin text textThen (descendTo node.span found ancestors before node)
      (descendTo other.span foundThen others beforeThen other) := by
  induction node using inductionOnChildren
    generalizing other ancestors others before beforeThen found foundThen with
  | ofChildren node inductionHypothesis =>
    have width := same.width_eq sound.placed.isIn soundThen.placed.isIn
    have wideThen : other.span.start < other.span.stop := by omega
    rw [descendTo_eq, descendTo_eq]
    set here := if node.isNamed then (⟨node, before, ancestors⟩ : Place) else found with isHere
    set hereThen := if other.isNamed then (⟨other, beforeThen, others⟩ : Place) else foundThen
      with isHereThen
    have sameHere : AlikeWithin text textThen here hereThen := by
      rw [isHere, isHereThen, isNamed, isNamed, same.kind_eq]
      split
      · exact ⟨same, around⟩
      · exact sameFound
    have children := same.children
    cases parts : node.children with
    | nil =>
      rw [parts] at children
      cases partsThen : other.children with
      | nil => exact sameHere
      | cons firstThen restThen => simp [partsThen] at children
    | cons first rest =>
      rw [parts] at children
      obtain ⟨firstThen, restThen, sameFirst, -, partsThen⟩ := List.forall₂_cons_left_iff.1 children
      rw [partsThen]
      have member : first ∈ node.children := parts ▸ List.mem_cons_self
      have firstSound := sound.child member
      have firstSoundThen := soundThen.child (partsThen ▸ List.mem_cons_self)
      obtain ⟨start, firstWide, stop, behind⟩ := sound.first wide parts
      obtain ⟨startThen, firstWideThen, stopThen, behindThen⟩ := soundThen.first wideThen partsThen
      have firstWidth := sameFirst.width_eq firstSound.placed.isIn firstSoundThen.placed.isIn
      by_cases all : first.span.stop = node.span.stop
      -- the first child has all bytes, and so has the other one
      · have allThen : firstThen.span.stop = other.span.stop := by omega
        rw [descendInto_of_reaches wide (Nat.le_of_eq all.symm) (Nat.le_of_eq start),
          descendInto_of_reaches wideThen (Nat.le_of_eq allThen.symm) (Nat.le_of_eq startThen),
          ← Span.eq_of_offsets start all, ← Span.eq_of_offsets startThen allThen]
        exact inductionHypothesis first member sameFirst firstSound firstSoundThen firstWide
          (.cons (.inl same) around) sameHere
      · rw [descendInto_of_stop_lt wide (by omega), descendInto_of_stop_lt wideThen (by omega),
          descendInto_of_start_lt behind, descendInto_of_start_lt behindThen]
        exact sameHere

end

end Node

/-! ## Units with the same code -/

namespace SourceUnit

open Node

theorem isSound_of_mem_children {unit : SourceUnit} {statement : Node}
    (member : statement ∈ unit.tree.children) : statement.IsSound unit.text :=
  ⟨unit.isPlaced_tree.child member, Tree.isTight_of_mem_children (unit.tree_eq ▸ member)⟩

end SourceUnit

namespace Node

/-- The places of a list of nodes are those of its nodes. -/
theorem exists_of_mem_placesOfAll {ancestors before nodes : List Node} {place : Place}
    (member : place ∈ placesOfAll ancestors before nodes) :
    ∃ node ∈ nodes, ∃ inFront, place ∈ placesBelow ancestors inFront node := by
  induction nodes generalizing before with
  | nil => simp [placesOfAll] at member
  | cons first rest inductionHypothesis =>
    rw [placesOfAll, List.mem_append] at member
    rcases member with here | later
    · exact ⟨first, List.mem_cons_self, before, here⟩
    · obtain ⟨node, nodeMember, inFront, below⟩ := inductionHypothesis later
      exact ⟨node, List.mem_cons_of_mem _ nodeMember, inFront, below⟩

theorem isNamed_of_isAnyIdentifier {node : Node} (identifier : node.kind.isAnyIdentifier = true) :
    node.isNamed = true := by
  rw [isNamed, bne_iff_ne]
  intro token
  rw [token] at identifier
  cases identifier

theorem exists_mem_of_forall₂ {α β : Type} {related : α → β → Prop} {items : List α}
    {others : List β} (same : Forall₂ related items others) {item : α} (member : item ∈ items) :
    ∃ other ∈ others, related item other := by
  induction same with
  | nil => cases member
  | cons first _ inductionHypothesis =>
    rcases List.mem_cons.1 member with rfl | later
    · exact ⟨_, List.mem_cons_self, first⟩
    · obtain ⟨other, otherMember, alike⟩ := inductionHypothesis later
      exact ⟨other, List.mem_cons_of_mem _ otherMember, alike⟩

end Node

namespace SourceUnit

open Node

variable {unit other : SourceUnit}

/-- An identifier beside the import statements stands in the code. -/
theorem exists_codeStatement {place : Place} (member : place ∈ unit.tree.places)
    (identifier : place.node.kind.isAnyIdentifier = true)
    (outside : place.isInside .importStatement = false) :
    ∃ statement ∈ unit.code, ∃ inFront, place ∈ placesBelow [unit.tree] inFront statement := by
  rw [places_eq, List.mem_cons] at member
  rcases member with rfl | inner
  · rw [unit.kind_tree] at identifier
    cases identifier
  · obtain ⟨statement, statementMember, inFront, below⟩ := exists_of_mem_placesOfAll inner
    refine ⟨statement, List.mem_filter.2 ⟨statementMember, ?_⟩, inFront, below⟩
    simp only [bne_iff_ne, ne_eq]
    intro imports
    rcases suffix_of_mem_placesBelow below with own | around
    · rw [own.1, imports] at identifier
      cases identifier
    · have inside : place.isInside .importStatement = true := by
        rw [Place.isInside, Place.ancestorOfKind?, List.find?_isSome]
        exact ⟨statement, around.subset List.mem_cons_self, by simp [imports]⟩
      rw [inside] at outside
      cases outside

/-- Identifiers of the code stand where alike ones do in a unit with the same code, and their bytes
lead to alike nodes. -/
theorem exists_alikeWithin_nodeAt (same : unit.sameCode other = true) {place : Place}
    (member : place ∈ unit.tree.places) (identifier : place.node.kind.isAnyIdentifier = true)
    (outside : place.isInside .importStatement = false)
    (wide : place.node.span.start < place.node.span.stop) :
    ∃ placeThen ∈ other.tree.places, AlikeWithin unit.text other.text place placeThen ∧
      AlikeWithin unit.text other.text (unit.tree.nodeAt place.node.span)
        (other.tree.nodeAt placeThen.node.span) := by
  obtain ⟨statement, inCode, inFront, below⟩ := exists_codeStatement member identifier outside
  obtain ⟨statementThen, inCodeThen, sameStatement⟩ :=
    exists_mem_of_forall₂ (allAlike_iff.1 same) inCode
  have statementMember := (List.mem_filter.1 inCode).1
  have statementMemberThen := (List.mem_filter.1 inCodeThen).1
  have roots : Forall₂ (AlikeUpToRoot unit.text other.text) [unit.tree] [other.tree] :=
    .cons (.inr ⟨unit.kind_tree, other.kind_tree⟩) .nil
  have stands (inFrontThen : List Node) :
      ∃ placeThen ∈ placesBelow [other.tree] inFrontThen statementThen,
        AlikeWithin unit.text other.text place placeThen ∧
          placeThen.node.IsSound other.text := by
    obtain ⟨placeThen, belowThen, alike⟩ :=
      exists_mem_of_forall₂ (forall₂_alikeWithin_placesBelow roots sameStatement) below
    exact ⟨placeThen, belowThen, alike, (isSound_of_mem_children statementMemberThen).below
      (mem_descendants_of_mem_placesBelow belowThen)⟩
  obtain ⟨placeThen, memberThen, alike, soundThen⟩ :=
    exists_mem_placesOfAll statementMemberThen stands []
  have inTree : placeThen ∈ other.tree.places := by
    rw [places_eq]
    exact List.mem_cons_of_mem _ memberThen
  have sound : place.node.IsSound unit.text :=
    (isSound_of_mem_children statementMember).below (mem_descendants_of_mem_placesBelow below)
  have wideThen : placeThen.node.span.start < placeThen.node.span.stop := by
    have width := alike.node.width_eq sound.placed.isIn soundThen.placed.isIn
    omega
  have named : place.node.isNamed = true := isNamed_of_isAnyIdentifier identifier
  have namedThen : placeThen.node.isNamed = true :=
    isNamed_of_isAnyIdentifier (alike.node.kind_eq ▸ identifier)
  refine ⟨placeThen, inTree, alike, ?_⟩
  rw [unit.isPlaced_tree.nodeAt_eq_descendTo member named wide place,
    other.isPlaced_tree.nodeAt_eq_descendTo inTree namedThen wideThen placeThen]
  exact alikeWithin_descendTo alike.node sound soundThen wide alike.ancestors alike

end SourceUnit

end CreatorMigration
