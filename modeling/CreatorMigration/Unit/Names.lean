import CreatorMigration.Text.Names
import CreatorMigration.Unit.Basic

/-! # Mentioned and bound names

* A unit mentions a name wherever an identifier of that name stands outside its imports and outside
  what it passes on from other modules.
* A unit binds a name wherever it declares it, in any scope; scopes are not told apart.
-/

namespace CreatorMigration.SourceUnit

/-! ## Mentioned names -/

/-- Whether a place is in the list of an `export … from`. -/
def isPassedOn (place : Place) : Bool :=
  match place.ancestorOfKind? .exportStatement with
  | some statement => statement.hasChild .source
  | none => false

def isMention (place : Place) : Bool :=
  place.node.kind.isAnyIdentifier && !place.isInside .importStatement && !isPassedOn place

def namesUsed (unit : SourceUnit) : List String :=
  Text.nameSet ((unit.tree.places.filter isMention).map fun place => unit.textOf place.node)

/-! ## Bound names -/

/-- Whether a place is the key of a property in a pattern, which binds nothing. -/
def isKeyInPattern (place : Place) : Bool :=
  place.node.role == some .key && place.parent?.any fun parent => parent.kind == .pairPattern

/-- The child of a node that holds what the node binds. -/
def binding? (node : Node) : Option Node :=
  match node.kind with
  | .importSpecifier => (node.child? .otherName).orElse fun _ => node.child? .name
  | .importClause | .namespaceImport => node.childOfKind? .identifier
  | .variableDeclarator | .functionDeclaration | .generatorFunctionDeclaration
  | .classDeclaration | .abstractClassDeclaration | .enumDeclaration | .interfaceDeclaration
  | .typeAliasDeclaration | .typeParameter => node.child? .name
  | .requiredParameter | .optionalParameter => node.child? .pattern
  | .arrowFunction | .catchClause => node.child? .parameter
  | .shorthandPropertyIdentifierPattern => some node
  | _ => none

def bindsItself (node : Node) : Bool :=
  node.kind == .identifier || node.kind == .typeIdentifier ||
    node.kind == .shorthandPropertyIdentifierPattern

/-- Whether a place in a pattern binds its own text. -/
def bindsInPattern (place : Place) : Bool :=
  (place.node.kind == .identifier || place.node.kind == .shorthandPropertyIdentifierPattern) &&
    !isKeyInPattern place

/-- The nodes whose texts a binding binds: itself, or all names in a pattern. -/
def boundNodes (binding : Node) : List Node :=
  if bindsItself binding then [binding]
  else (binding.places.filter bindsInPattern).map Place.node

def namesBound (unit : SourceUnit) : List String :=
  Text.nameSet ((unit.tree.descendants.filterMap binding?).flatMap boundNodes |>.map unit.textOf)

end CreatorMigration.SourceUnit
