import CreatorMigration.Naming
import CreatorMigration.Tree.Node

/-! # Questions to the tree

What the migrations ask of calls, unions, decorators and class members. Comments are no part of any
answer.
-/

namespace CreatorMigration

namespace Node

/-- The bytes of a node. -/
def textIn (text : String) (node : Node) : String := Text.slice text node.span

/-- The text of the child in a role, or the empty text without such a child. -/
def childText (text : String) (role : Role) (node : Node) : String :=
  ((node.child? role).map (textIn text)).getD ""

/-! ## Calls -/

def isCall (node : Node) : Bool := node.kind == .callExpression

/-- The arguments of a call or of a construction. -/
def callArguments (call : Node) : List Node :=
  ((call.child? .arguments).map namedParts).getD []

def typeArguments? (call : Node) : Option Node :=
  (call.child? .typeArguments).orElse fun _ => call.childOfKind? .typeArguments

def calleeIs (text : String) (holds : String → Bool) (call : Node) : Bool :=
  call.isCall && ((call.child? .callee).map (textIn text)).any holds

/-- The calls in a tree whose callee ends with the given name. -/
def callsOf (text name : String) (root : Node) : List Node :=
  root.descendants.filter (calleeIs text fun callee => unqualified callee == name)

/-- Whether a call of exactly the given callee stands anywhere in the tree. -/
def hasCallOf (text name : String) (root : Node) : Bool :=
  root.descendants.any (calleeIs text (· == name))

/-! ## Unions -/

mutual

/-- The members of a union in the order they are written; another type is its own only member. -/
def unionMembers : Node → List Node
  | node@⟨kind, _, _, children⟩ =>
      if kind = .unionType then unionMembersOfAll children else [node]

def unionMembersOfAll : List Node → List Node
  | [] => []
  | child :: rest =>
      (if child.isNamed && !child.isComment then unionMembers child else []) ++
        unionMembersOfAll rest

end

/-- The last union met when going up from `node` through unions only. -/
def outermostUnion (node : Node) : List Node → Node
  | [] => node
  | ancestor :: above =>
      if ancestor.kind = .unionType then outermostUnion ancestor above else node

/-! ## Decorators -/

def isDecorator (node : Node) : Bool := node.kind == .decorator

def ownDecorators (member : Node) : List Node := member.parts.filter isDecorator

/-- The name of a decorator, with or without arguments behind it. -/
def decoratorName? (text : String) (decorator : Node) : Option String :=
  decorator.namedParts.head?.bind fun expression =>
    if expression.isCall then (expression.child? .callee).map (textIn text)
    else some (expression.textIn text)

end Node

namespace Place

/-- The decorators right in front of a member, in their order. -/
def precedingDecorators (place : Place) : List Node :=
  ((place.before.takeWhile fun sibling => sibling.isDecorator || sibling.isComment).filter
    Node.isDecorator).reverse

/-- All decorators of a class member: those in front of it and its own. -/
def decorators (member : Place) : List Node :=
  member.precedingDecorators ++ member.node.ownDecorators

/-- The first decorator of the given name. -/
def decoratorNamed? (text name : String) (member : Place) : Option Node :=
  member.decorators.find? fun decorator => decorator.decoratorName? text == some name

end Place

end CreatorMigration
