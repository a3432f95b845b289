import CreatorMigration.Text.Quoted
import CreatorMigration.Unit.Basic

/-! # Imports and re-exports

Import statements and `export … from` statements as values of their own, which outlive the tree that
they were read from.
-/

namespace CreatorMigration

/-- One name of a list of imports. -/
structure ImportSpecifier where
  name : String
  /-- The name behind `as`. -/
  otherName : Option String
  text : String
  span : Span
deriving Inhabited

/-- The name that the specifier binds in the importing unit. -/
def ImportSpecifier.localName (specifier : ImportSpecifier) : String :=
  specifier.otherName.getD specifier.name

structure Import where
  statement : Span
  /-- The specifier of the module, without quotes. -/
  source : String
  defaultName : Option String
  /-- The name behind `* as`. -/
  namespaceName : Option String
  named : List ImportSpecifier
  /-- The braces with all between them. -/
  namedSpan : Option Span
  typeOnly : Bool
deriving Inhabited

namespace Import

/-- The names that the statement binds. -/
def localNames (statement : Import) : List String :=
  statement.defaultName.toList ++ statement.namespaceName.toList ++
    statement.named.map ImportSpecifier.localName

def specifierFor? (statement : Import) (name : String) : Option ImportSpecifier :=
  statement.named.find? fun specifier => specifier.name == name

def isRelative (statement : Import) : Bool := Text.hasStart "." statement.source

/-! ## Reading -/

def readSpecifier (text : String) (node : Node) : Option ImportSpecifier :=
  if node.kind = .importSpecifier then
    (node.child? .name).map fun name =>
      { name := name.textIn text
        otherName := (node.child? .otherName).map (Node.textIn text)
        text := node.textIn text
        span := node.span }
  else none

/-- Adds what one part of the clause of an import says. -/
def readPart (text : String) (statement : Import) (part : Node) : Import :=
  if part.kind = .identifier then { statement with defaultName := some (part.textIn text) }
  else if part.kind = .namespaceImport then
    { statement with namespaceName := part.namedParts.head?.map (Node.textIn text) }
  else if part.kind = .namedImports then
    { statement with
      namedSpan := some part.span
      named := statement.named ++ part.namedParts.filterMap (readSpecifier text) }
  else statement

/-- A statement that names no module of its own is no import. -/
def ofNode? (text : String) (node : Node) : Option Import :=
  (node.child? .source).map fun source =>
    let bare : Import :=
      { statement := node.span
        source := Text.unquote (source.textIn text)
        defaultName := none
        namespaceName := none
        named := []
        namedSpan := none
        typeOnly := node.parts.any fun child => !child.isNamed && child.textIn text == "type" }
    match node.childOfKind? .importClause with
    | some clause => clause.namedParts.foldl (readPart text) bare
    | none => bare

end Import

/-! ## Re-exports -/

structure ReExport where
  source : String
  /-- The names on both sides of the module; `none` passes every name on. -/
  names : Option (List (String × String))

namespace ReExport

def readPair (text : String) (specifier : Node) : Option (String × String) :=
  (specifier.child? .name).map fun name =>
    let imported := name.textIn text
    (imported, ((specifier.child? .otherName).map (Node.textIn text)).getD imported)

def ofNode? (text : String) (node : Node) : Option ReExport :=
  (node.child? .source).map fun source =>
    { source := Text.unquote (source.textIn text)
      names := (node.childOfKind? .exportClause).map fun clause =>
        clause.namedParts.filterMap (readPair text) }

/-- The name under which `name` leaves the re-exporting unit. -/
def outerName? (statement : ReExport) (name : String) : Option String :=
  match statement.names with
  | none => some name
  | some pairs => pairs.lookup name

end ReExport

namespace SourceUnit

def topLevelOf (unit : SourceUnit) (kind : Kind) : List Node :=
  (unit.topLevel.map Place.node).filter fun node => node.kind == kind

def imports (unit : SourceUnit) : List Import :=
  (unit.topLevelOf .importStatement).filterMap (Import.ofNode? unit.text)

def reExports (unit : SourceUnit) : List ReExport :=
  (unit.topLevelOf .exportStatement).filterMap (ReExport.ofNode? unit.text)

/-- The offset behind the last import, or the start of the unit. -/
def importsEnd (unit : SourceUnit) : Nat :=
  ((unit.topLevelOf .importStatement).map fun node => node.span.stop).foldl max 0

end SourceUnit

/-- `import { a, b } from 'module';` -/
def importText (names : List String) (module : String) : String :=
  "import \x7b " ++ Text.join ", " names ++ " \x7d from " ++ Text.singleQuoted module ++ ";"

end CreatorMigration
