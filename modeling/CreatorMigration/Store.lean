import CreatorMigration.Project.Basic

/-! # Stores

A store is a directory with a unit of actions, a unit with the reducing function and units of effect
pipelines. The suffixes of file names tell which unit plays which part.

* `Store.ofDirectory` names the units of a directory, whether they exist or not.
* `Store.discover` finds the stores among the leaf directories of a project.
-/

namespace CreatorMigration

/-- The part that a unit plays in its store. -/
inductive StorePart where
  | declaration
  | reducer
  | pipeline
  | other
deriving DecidableEq

def StorePart.ofPath (naming : Naming) (path : Path) : StorePart :=
  let name := path.fileName?.getD ""
  if Text.hasEnd naming.actionsSuffix name then declaration
  else if Text.hasEnd naming.reducerSuffix name then reducer
  else if Text.hasEnd naming.effectsSuffix name then pipeline
  else other

structure Store where
  name : String
  directory : Path
  /-- The unit of actions; it may be missing from the project, and so may be the reducer. -/
  declaration : Path
  reducer : Path
  pipelines : List Path
deriving Inhabited

namespace Store

/-- Whether a path runs through a directory that holds stores. -/
def liesInStore (naming : Naming) (path : Path) : Bool :=
  let text := path.text.map fun c => if c = '\\' then '/' else c
  Text.includes naming.storeMarker ("/" ++ text ++ "/")

/-- The unit named after the directory, or else the only unit with the suffix. -/
def pick (project : Project) (directory : Path) (name suffix : String) : Path :=
  let conventional := directory.under ⟨name ++ suffix⟩
  if project.contains conventional then conventional
  else
    match (project.pathsIn directory).filter fun path =>
        path.fileName?.any (Text.hasEnd suffix) with
    | [only] => only
    | _ => conventional

def ofDirectory (naming : Naming) (project : Project) (directory : Path) : Store :=
  let name := directory.fileName?.getD ""
  { name
    directory
    declaration := pick project directory name naming.actionsSuffix
    reducer := pick project directory name naming.reducerSuffix
    pipelines := (project.pathsIn directory).filter fun path =>
      decide (StorePart.ofPath naming path = .pipeline) }

/-- Whether the project has any of the units of the store. -/
def hasAnyUnit (project : Project) (store : Store) : Bool :=
  project.contains store.declaration || project.contains store.reducer ||
    !store.pipelines.isEmpty

def discover (naming : Naming) (project : Project) : List Store :=
  ((project.leafDirectories.filter (liesInStore naming)).map (ofDirectory naming project)).filter
    (hasAnyUnit project)

/-- The directory meant by one that was named outside of the project: it may start with the root of
the project or be given from there. -/
def namedDirectory (project : Project) (directory : Path) : Path :=
  if directory.isAbsolute ∨ directory.isUnder project.root then directory.normalize
  else (project.root.under directory).normalize

/-- The stores of the named directories, or all stores of the project if none is named. -/
def select (naming : Naming) (project : Project) : List Path → List Store
  | [] => discover naming project
  | directories =>
      directories.map fun directory =>
        ofDirectory naming project (namedDirectory project directory)

end Store

end CreatorMigration
