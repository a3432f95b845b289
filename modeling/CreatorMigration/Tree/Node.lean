import CreatorMigration.Span
import CreatorMigration.Tree.Kind

/-! # Nodes

The tree of a unit. A node knows its kind, its role in its parent and the bytes that it spans;
comments are children of whatever node they stand in.

* `Node.descendants` lists a node and all below it, parents before children.
* `Place` is a node together with what surrounds it, and `Node.places` lists all places of a tree.
* `Node.nodeAt` finds the smallest named node around a span.
-/

namespace CreatorMigration

structure Node where
  kind : Kind
  role : Option Role
  span : Span
  children : List Node
deriving Inhabited

namespace Node

/-! ## Children -/

def isNamed (node : Node) : Bool := node.kind != Kind.token

def isComment (node : Node) : Bool := node.kind == Kind.comment

/-- The children without the comments. -/
def parts (node : Node) : List Node := node.children.filter fun child => !child.isComment

/-- The named children without the comments. -/
def namedParts (node : Node) : List Node :=
  node.children.filter fun child => child.isNamed && !child.isComment

def child? (node : Node) (role : Role) : Option Node :=
  node.children.find? fun child => child.role == some role

def childOfKind? (node : Node) (kind : Kind) : Option Node :=
  node.children.find? fun child => child.kind == kind

def hasChild (node : Node) (role : Role) : Bool := (node.child? role).isSome

/-! ## All nodes of a tree -/

mutual

/-- The node and all nodes below it, each before its children. -/
def descendants : Node → List Node
  | node@⟨_, _, _, children⟩ => node :: descendantsOfAll children

def descendantsOfAll : List Node → List Node
  | [] => []
  | child :: rest => descendants child ++ descendantsOfAll rest

end

end Node

/-- A node, the siblings in front of it and the nodes around it, both with the nearest first. -/
structure Place where
  node : Node
  before : List Node
  ancestors : List Node
deriving Inhabited

namespace Node

mutual

/-- The places of a node and of all nodes below it, in the order of `descendants`. -/
def placesBelow (ancestors before : List Node) : Node → List Place
  | node@⟨_, _, _, children⟩ =>
      ⟨node, before, ancestors⟩ :: placesOfAll (node :: ancestors) [] children

def placesOfAll (ancestors before : List Node) : List Node → List Place
  | [] => []
  | child :: rest =>
      placesBelow ancestors before child ++ placesOfAll ancestors (child :: before) rest

end

/-- The places of a tree whose root has no surroundings. -/
def places (root : Node) : List Place := placesBelow [] [] root

/-- The places of the children of a root. -/
def childPlaces (root : Node) : List Place :=
  go [] root.children
where
  go (before : List Node) : List Node → List Place
    | [] => []
    | child :: rest => ⟨child, before, [root]⟩ :: go (child :: before) rest

end Node

namespace Place

def parent? (place : Place) : Option Node := place.ancestors.head?

/-- The nearest node of a kind around the place. -/
def ancestorOfKind? (place : Place) (kind : Kind) : Option Node :=
  place.ancestors.find? fun ancestor => ancestor.kind == kind

def isInside (place : Place) (kind : Kind) : Bool := (place.ancestorOfKind? kind).isSome

end Place

namespace Node

/-! ## The node at a span -/

/-- Whether a node reaches over a span; one without bytes only over the empty span it stands at. -/
def reaches (node : Node) (span : Span) : Bool :=
  decide (span.stop ≤ node.span.stop) &&
    (if node.span.start = node.span.stop then decide (span.start ≤ node.span.stop)
     else decide (span.start < node.span.stop))

mutual

/-- Goes down to the first child that reaches over the span as long as it starts before the span. -/
def descendTo (span : Span) (found : Place) (ancestors before : List Node) : Node → Place
  | node@⟨_, _, _, children⟩ =>
      let here : Place := ⟨node, before, ancestors⟩
      descendInto span (if node.isNamed then here else found) (node :: ancestors) [] children

def descendInto (span : Span) (found : Place) (ancestors before : List Node) : List Node → Place
  | [] => found
  | child :: rest =>
      if child.reaches span then
        if span.start < child.span.start then found
        else descendTo span found ancestors before child
      else descendInto span found ancestors (child :: before) rest

end

/-- The smallest named node of the tree that spans all bytes of a span, in its surroundings. -/
def nodeAt (root : Node) (span : Span) : Place :=
  descendTo span ⟨root, [], []⟩ [] [] root

end Node

end CreatorMigration
