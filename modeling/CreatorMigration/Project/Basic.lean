import CreatorMigration.Project.Error
import CreatorMigration.Project.Resolution
import CreatorMigration.Unit.Basic

/-! # Projects

A `Project` holds the units of a source tree in the order of their paths. Every change goes through
`Project.apply`, which changes one unit by one batch of edits or nothing at all.

* `Project.ofSources` normalizes the paths; of two units with one path the later one stays.
* `Project.unit?` finds a unit by any spelling of its path.
* `Project.leafDirectories` lists the directories with units and without such directories below.
-/

namespace CreatorMigration

/-- Units by their paths. -/
def SourceUnit.order (left right : SourceUnit) : Ordering := left.path.order right.path

instance : Std.TransCmp SourceUnit.order where
  eq_swap := @fun left right => @Std.OrientedCmp.eq_swap _ Path.order _ left.path right.path
  isLE_trans := @fun left middle right =>
    @Std.TransCmp.isLE_trans _ Path.order _ left.path middle.path right.path

structure Project where
  root : Path
  layout : ProjectLayout
  units : List SourceUnit
  ordered : units.Pairwise fun left right => left.order right = .lt

namespace Project

def ofUnits (root : Path) (layout : ProjectLayout) (units : List SourceUnit) : Project :=
  { root := root.normalize
    layout
    units := Ordered.ofList SourceUnit.order units
    ordered := Ordered.pairwise_ofList SourceUnit.order units }

def ofSources (root : Path) (layout : ProjectLayout) (sources : List (Path × String)) : Project :=
  ofUnits root layout (sources.map fun (path, text) => SourceUnit.ofText path.normalize text)

instance : Inhabited Project := ⟨ofSources ⟨""⟩ {} []⟩

/-! ## Finding units -/

def paths (project : Project) : List Path := project.units.map SourceUnit.path

def unit? (project : Project) (path : Path) : Option SourceUnit :=
  project.units.find? fun unit => unit.path == path.normalize

def contains (project : Project) (path : Path) : Bool := (project.unit? path).isSome

def require (project : Project) (path : Path) : Except ProjectError SourceUnit :=
  match project.unit? path with
  | some unit => .ok unit
  | none => .error (.unknownUnit path)

def resolve (project : Project) (importer : Path) (specifier : String) : Option Path :=
  Resolution.resolve project.layout project.root project.paths importer specifier

/-! ## Directories -/

def pathsUnder (project : Project) (directory : Path) : List Path :=
  project.paths.filter fun path => path.isUnder directory.normalize

def pathsIn (project : Project) (directory : Path) : List Path :=
  project.paths.filter fun path => path.parent?.any (· == directory.normalize)

/-- The directories that directly contain a unit. -/
def directories (project : Project) : List Path :=
  Path.sortedSet (project.paths.filterMap Path.parent?)

/-- Drops each directory that contains the one behind it. -/
def leaves : List Path → List Path
  | first :: second :: rest =>
      if second.isUnder first then leaves (second :: rest) else first :: leaves (second :: rest)
  | short => short

/-- In the order of paths a directory stands right before the directories below it. -/
def leafDirectories (project : Project) : List Path := leaves project.directories

/-! ## Changing units -/

/-- Changes all units without moving any. -/
def mapUnits (project : Project) (change : SourceUnit → SourceUnit)
    (unmoved : ∀ unit, (change unit).path = unit.path) : Project :=
  { project with
    units := project.units.map change
    ordered := by
      simpa [List.pairwise_map, SourceUnit.order, unmoved] using project.ordered }

/-- Puts a unit in the place of the one with its path. -/
def replaceUnit (project : Project) (unit : SourceUnit) : Project :=
  project.mapUnits
    (fun other => if other.path == unit.path then { unit with path := other.path } else other)
    (fun other => by split <;> rfl)

def apply (project : Project) (path : Path) (edits : List Edit) : Except ProjectError Project := do
  let unit ← project.require path
  match unit.apply edits with
  | .ok changed => .ok (project.replaceUnit changed)
  | .error fault => .error (.badEdits unit.path fault)

/-- Adds a declaration behind a blank line at the end of a unit. -/
def addDeclaration (project : Project) (path : Path) (text : String) :
    Except ProjectError Project := do
  let unit ← project.require path
  let separator := if Text.hasEnd "\n" unit.text then "\n" else "\n\n"
  project.apply path [Edit.insert (Text.size unit.text) (separator ++ text ++ "\n")]

/-- The units whose text is not the one that was loaded. -/
def changedPaths (project : Project) : List Path :=
  (project.units.filter SourceUnit.isChanged).map SourceUnit.path

end Project

end CreatorMigration
