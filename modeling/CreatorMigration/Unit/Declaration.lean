import CreatorMigration.Unit.Basic

/-! # Declarations

What a unit declares at its top level, with or without `export` in front of it.

* `SourceUnit.declarations` lists them in order; a statement that declares several variables gives
  one declaration for each.
* `SourceUnit.exportedNames` adds the names in lists of exports.
-/

namespace CreatorMigration

inductive DeclarationKind where
  | enum
  | classLike
  | typeAlias
  | function
  | interface
  | variable
deriving DecidableEq

def DeclarationKind.ofKind? : Kind → Option DeclarationKind
  | .enumDeclaration => some .enum
  | .classDeclaration | .abstractClassDeclaration => some .classLike
  | .typeAliasDeclaration => some .typeAlias
  | .functionDeclaration | .generatorFunctionDeclaration => some .function
  | .interfaceDeclaration => some .interface
  | .lexicalDeclaration | .variableDeclaration => some .variable
  | _ => none

structure Declaration where
  kind : DeclarationKind
  /-- The node that carries the name. -/
  node : Node
  /-- The statement at the top level that declares it. -/
  statement : Place
  exported : Bool

namespace Declaration

/-- The nodes that carry the names which a declaring node declares. -/
def carriers (kind : DeclarationKind) (declaring : Node) : List Node :=
  if kind = .variable then
    declaring.namedParts.filter fun child => child.kind == .variableDeclarator
  else [declaring]

def ofStatement (statement : Place) : List Declaration :=
  let exported := statement.node.kind == .exportStatement
  let declaring := if exported then statement.node.child? .declaration else some statement.node
  match declaring with
  | none => []
  | some declaring =>
      match DeclarationKind.ofKind? declaring.kind with
      | none => []
      | some kind =>
          (carriers kind declaring).map fun node => { kind, node, statement, exported }

end Declaration

namespace SourceUnit

def declarations (unit : SourceUnit) : List Declaration :=
  unit.topLevel.flatMap Declaration.ofStatement

def nameOf? (unit : SourceUnit) (declaration : Declaration) : Option String :=
  (declaration.node.child? .name).map unit.textOf

def declarationsOfKind (unit : SourceUnit) (kind : DeclarationKind) : List Declaration :=
  unit.declarations.filter fun declaration => decide (declaration.kind = kind)

/-- The first declaration of a name. -/
def declaration? (unit : SourceUnit) (name : String) : Option Declaration :=
  unit.declarations.find? fun declaration => unit.nameOf? declaration == some name

/-! ## Exports -/

/-- The name under which an entry of a list of exports leaves the unit. -/
def outerName? (unit : SourceUnit) (specifier : Node) : Option String :=
  ((specifier.child? .otherName).orElse fun _ => specifier.child? .name).map unit.textOf

/-- The names in a list of exports that names no other module. -/
def listedExports (unit : SourceUnit) (statement : Node) : List String :=
  if statement.kind = .exportStatement ∧ !statement.hasChild .source then
    match statement.childOfKind? .exportClause with
    | some clause => clause.namedParts.filterMap unit.outerName?
    | none => []
  else []

def exportedNames (unit : SourceUnit) : List String :=
  (unit.declarations.filter Declaration.exported).filterMap unit.nameOf? ++
    unit.topLevel.flatMap fun place => unit.listedExports place.node

end SourceUnit

end CreatorMigration
