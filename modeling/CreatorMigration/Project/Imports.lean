import CreatorMigration.Path.Relative
import CreatorMigration.Project.Reference
import CreatorMigration.Project.Update
import CreatorMigration.Unit.Names
import CreatorMigration.Unit.Removal

/-! # Imports in step with what a unit mentions

* `Project.addImport` imports a name from a module, `Project.addImportOf` from another unit; both
  join an import of the same module when there is one.
* `Project.alignImports` brings in the names that a unit mentions and does not bind, and then
  drops the named imports that it does not mention. Names are brought in first, so that a new name
  can join a statement that is about to lose its last one.
-/

namespace CreatorMigration

/-- The names that an alignment imported and no longer imports. -/
structure ImportDifference where
  added : List String
  removed : List String

def ImportDifference.isEmpty (changes : ImportDifference) : Bool :=
  changes.added.isEmpty && changes.removed.isEmpty

namespace SourceUnit

/-! ## Edits of one unit -/

/-- Adds a name to a list of imports. -/
def joinEdit (name : String) (statement : Import) (list : Span) : Edit :=
  match statement.named.getLast? with
  | some last => Edit.insert last.span.stop (", " ++ name)
  | none => ⟨list, "\x7b " ++ name ++ " \x7d"⟩

/-- Adds an import statement behind the others, or in front of a unit without any. -/
def newImportEdit (unit : SourceUnit) (name module : String) : Edit :=
  let statement := importText [name] module
  match unit.importsEnd with
  | 0 => Edit.insert 0 (statement ++ "\n")
  | offset => Edit.insert offset ("\n" ++ statement)

/-- The edit that imports a name, unless an import binds it already. A statement that imports names
of the same module is joined, but not one of types only. -/
def importEdit? (unit : SourceUnit) (name module : String) (isSameModule : Import → Bool) :
    Option Edit :=
  if unit.imports.any fun statement => statement.localNames.contains name then none
  else
    let joined := unit.imports.findSome? fun statement =>
      if isSameModule statement && !statement.typeOnly then
        statement.namedSpan.map (joinEdit name statement)
      else none
    some (joined.getD (unit.newImportEdit name module))

/-- The edit that leaves `kept` as the only named imports of a statement. -/
def keepEdit? (unit : SourceUnit) (statement : Import) (kept : List ImportSpecifier) :
    Option Edit :=
  match kept, statement.defaultName with
  | _ :: _, _ =>
      statement.namedSpan.map fun list =>
        ⟨list, "\x7b " ++ Text.join ", " (kept.map ImportSpecifier.text) ++ " \x7d"⟩
  | [], some default =>
      let keyword := if statement.typeOnly then "import type " else "import "
      some ⟨statement.statement,
        keyword ++ default ++ " from " ++ Text.singleQuoted statement.source ++ ";"⟩
  | [], none =>
      if statement.namespaceName.isNone then
        some (Edit.delete (unit.removalSpanOf statement.statement))
      else none

def isUnused (mentioned : List String) (specifier : ImportSpecifier) : Bool :=
  !mentioned.contains specifier.localName

/-- The edits that drop the named imports that are not mentioned. -/
def unusedImportEdits (unit : SourceUnit) (mentioned : List String) : List Edit :=
  unit.imports.filterMap fun statement =>
    if statement.named.any (isUnused mentioned) then
      unit.keepEdit? statement (statement.named.filter fun specifier =>
        !isUnused mentioned specifier)
    else none

def unusedImports (unit : SourceUnit) (mentioned : List String) : List String :=
  unit.imports.flatMap fun statement =>
    (statement.named.filter (isUnused mentioned)).map ImportSpecifier.localName

/-- The names that a unit mentions and does not bind. -/
def namesMissing (unit : SourceUnit) : List String :=
  let bound := unit.namesBound
  unit.namesUsed.filter fun name => !bound.contains name

end SourceUnit

namespace Project

/-! ## Adding an import -/

/-- Imports a name and tells whether that changed the unit. -/
def importName (path : Path) (name module : String) (isSameModule : Import → Bool) :
    Update ProjectError Bool := do
  let unit ← Update.require path
  match unit.importEdit? name module isSameModule with
  | none => return false
  | some edit =>
      Update.apply path [edit]
      return true

def addImport (path : Path) (name module : String) : Update ProjectError Bool :=
  importName path name module fun statement => statement.source == module

/-- Imports a name from another unit, whatever specifier the unit is imported by so far. -/
def addImportOf (path : Path) (name : String) (target : Path) : Update ProjectError Bool := do
  let project ← get
  importName path name (path.relativeSpecifier target) fun statement =>
    (project.resolve path statement.source).any (· == target)

/-! ## Alignment -/

/-- Imports a name from the library, or else from the unit that exports it. -/
def bringIn (table : ImportTable) (path : Path) (name : String) : Update ProjectError Bool := do
  match table.find? name with
  | some module => addImport path name module
  | none =>
      match (← get).exporter? path name with
      | some target => addImportOf path name target
      | none => return false

/-- Brings in names one after the other and lists those that were imported. -/
def bringInAll (table : ImportTable) (path : Path) :
    List String → Update ProjectError (List String)
  | [] => return []
  | name :: rest => do
      let added ← bringIn table path name
      let names ← bringInAll table path rest
      return if added then name :: names else names

def alignImports (table : ImportTable) (path : Path) : Update ProjectError ImportDifference := do
  let before ← Update.require path
  let mentioned := before.namesUsed
  let added ← bringInAll table path before.namesMissing
  let unit ← Update.require path
  Update.apply path (unit.unusedImportEdits mentioned)
  return { added, removed := unit.unusedImports mentioned }

end Project

end CreatorMigration
