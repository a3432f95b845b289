import CreatorMigration.Path.Relative
import CreatorMigration.Project.Basic
import CreatorMigration.Text.Names
import CreatorMigration.Unit.Declaration
import CreatorMigration.Unit.Import

/-! # References

Who refers to a name that a unit declares, and which unit a name is to be imported from.

* `Project.routes` lists the modules through which a declared name can be imported: its own
  unit, and every unit that passes it on.
* `Project.references` lists the identifiers that stand for the name, in the declaring unit and
  wherever a route is imported from. Scopes are not told apart.
* `Project.exporter?` picks the unit to import a name from, the nearest one of several.
-/

namespace CreatorMigration

structure Reference where
  unit : Path
  span : Span
  inImport : Bool

/-- The identifiers of a unit with the given text. -/
def SourceUnit.identifierPlaces (unit : SourceUnit) (name : String) : List Place :=
  unit.tree.places.filter fun place =>
    place.node.kind.isAnyIdentifier && unit.textOf place.node == name

def SourceUnit.referencesTo (unit : SourceUnit) (name : String) : List Reference :=
  (unit.identifierPlaces name).map fun place =>
    { unit := unit.path, span := place.node.span, inImport := place.isInside .importStatement }

namespace Project

/-! ## Routes -/

/-- A module, and the name under which it exports what another unit declares. -/
structure Route where
  module : Path
  name : String

/-- The names under which `unit` passes on a name declared in `target`. -/
def passedOnAs (project : Project) (target : Path) (name : String) (unit : SourceUnit) :
    List Route :=
  unit.reExports.filterMap fun statement =>
    match statement.outerName? name with
    | none => none
    | some exported =>
        if (project.resolve unit.path statement.source).any (· == target) then
          some { module := unit.path, name := exported }
        else none

def routes (project : Project) (target : Path) (name : String) : List Route :=
  { module := target, name } ::
    (project.units.filter fun unit => !(unit.path == target)).flatMap
      (project.passedOnAs target name)

/-! ## Modules by the ends of specifiers -/

/-- The last segment of a specifier for a module; an `index` unit goes by its directory. -/
def moduleName (module : Path) : String :=
  match module.stem? with
  | some "index" => (module.parent?.bind Path.fileName?).getD ""
  | some stem => stem
  | none => ""

/-- Whether a specifier may name a module with one of the stems; this spares resolving it. -/
def mayName (stems : List String) (specifier : String) : Bool :=
  let last := Text.afterLast '/' (Text.trimEndMatches "/" specifier)
  last == "" || last == "." || last == ".." || stems.contains last ||
    stems.contains (Text.trimEndMatches ".ts" last)

/-! ## References -/

/-- The names that an import binds to a route. -/
def boundToRoutes (routes : List Route) (module : Path) (statement : Import) : List String :=
  (routes.filter fun route => module == route.module).filterMap fun route =>
    (statement.specifierFor? route.name).map ImportSpecifier.localName

/-- The names that a unit binds to one of the routes by its imports. -/
def localsFor (project : Project) (routes : List Route) (unit : SourceUnit) : List String :=
  let stems := routes.map fun route => moduleName route.module
  Text.nameSet <| unit.imports.flatMap fun statement =>
    if mayName stems statement.source then
      match project.resolve unit.path statement.source with
      | some module => boundToRoutes routes module statement
      | none => []
    else []

def references (project : Project) (declaring : Path) (name : String) : List Reference :=
  let target := declaring.normalize
  let routes := project.routes target name
  let own := (project.unit? target).toList
  let others := project.units.filter fun unit => !(unit.path == target)
  own.flatMap (·.referencesTo name) ++
    others.flatMap fun unit => (project.localsFor routes unit).flatMap unit.referencesTo

/-! ## Exporters -/

/-- The units that export a name by a declaration or a list of their own. -/
def exporters (project : Project) (name : String) : List Path :=
  (project.units.filter fun unit => unit.exportedNames.contains name).map SourceUnit.path

/-- The paths that share the most components with `importer`. -/
def nearestTo (importer : Path) (paths : List Path) : List Path :=
  let best := (paths.map (·.sharedDepth importer)).foldl max 0
  paths.filter fun path => path.sharedDepth importer == best

/-- The only exporter, or the nearest of several if it is the only one that near. -/
def exporter? (project : Project) (importer : Path) (name : String) : Option Path :=
  match (project.exporters name).filter (fun path => !(path == importer)) with
  | [] => none
  | [only] => some only
  | several =>
      match nearestTo importer several with
      | [nearest] => some nearest
      | _ => none

end Project

end CreatorMigration
