import CreatorMigration.Disk
import CreatorMigration.Project.Update

/-! # Projects in files

* `Project.load` reads all units below a root.
* `Workspace.save` writes the units whose text is not that of their file, in the order of their
  paths, and stops at the first that cannot be written. What was written until then counts as
  written.
* `Workspace.saveUnder` does so on a file system that refuses some of the writes.
-/

namespace CreatorMigration

namespace Project

/-! ## Loading -/

/-- The directory that is walked for a root. -/
def walkRoot (root : Path) : Path := if root.normalize.text = "" then ⟨"."⟩ else root.normalize

def walkError (root : Path) (reason : FileError) : ProjectError :=
  .walkFailure root ("IO error for operation on " ++ root.text ++ ": " ++ reason.message)

/-- The path of a file found below a root. -/
def foundPath (root : Path) (names : List String) : Path :=
  Path.ofComponents (root.normalize.components ++ names.map Component.name)

def isUnitPath (layout : ProjectLayout) (path : Path) : Bool :=
  path.fileName?.any layout.isUnitFile

/-- The paths of the units below a root, in order. -/
def unitPaths (disk : Disk) (layout : ProjectLayout) (root : Path) :
    Except ProjectError (List Path) :=
  match disk.find (walkRoot root) with
  | .error reason => .error (walkError (walkRoot root) reason)
  | .ok (location, _) =>
      .ok <| Path.sortedSet <|
        ((disk.filesUnder layout.isIgnored location).map (foundPath root)).filter
          (isUnitPath layout)

def loadUnit (disk : Disk) (path : Path) : Except ProjectError SourceUnit :=
  match disk.read path with
  | .ok text => .ok (SourceUnit.ofText path text)
  | .error reason => .error (.fileFailure path reason.message)

def load (disk : Disk) (layout : ProjectLayout) (root : Path) : Except ProjectError Project := do
  let paths ← unitPaths disk layout root
  let units ← paths.mapM (loadUnit disk)
  return ofUnits root layout units

end Project

/-! ## Saving -/

/-- A project together with the files that it is saved to. -/
structure Workspace where
  project : Project
  disk : Disk
deriving Inhabited

namespace Workspace

/-- An activity that may write files and fails when a file cannot be written. -/
abbrev Task (α : Type) := EStateM ProjectError Workspace α

/-- Lets the project change and leaves the files alone. -/
def onProject {α : Type} (change : StateM Project α) : Task α := do
  let workspace ← get
  let (answer, project) := change.run workspace.project
  set { workspace with project }
  return answer

/-- Why a file system refuses to write some files at the moment, whatever its directories hold: it
may be full or protected. -/
abbrev WriteFaults := Path → Option String

/-- Writes the text of a unit into its file. A file that is not written stays as it was. -/
def writeUnit (faults : WriteFaults) (unit : SourceUnit) : Task Unit := do
  let workspace ← get
  match faults unit.path, workspace.disk.write unit.path unit.text with
  | some reason, _ => throw (.fileFailure unit.path reason)
  | none, .error reason => throw (.fileFailure unit.path reason.message)
  | none, .ok disk => set { project := workspace.project.replaceUnit unit.markSaved, disk : Workspace }

/-- Writes those of some units that differ from their files, and lists them. -/
def writeUnits (faults : WriteFaults) : List SourceUnit → Task (List Path)
  | [] => return []
  | unit :: rest => do
      if unit.isUnsaved then
        writeUnit faults unit
        return unit.path :: (← writeUnits faults rest)
      else writeUnits faults rest

def saveUnder (faults : WriteFaults) : Task (List Path) := do
  writeUnits faults (← get).project.units

def save : Task (List Path) := saveUnder fun _ => none

end Workspace

end CreatorMigration
