import CreatorMigration.Path.Basic

/-! # Files

A `Disk` is what a program sees of a file system: directories and files under the names that lead to
them, and a working directory from which relative paths start.

* `Disk.locate` follows a path; everything in front of its last name must be a directory.
* `Disk.read` and `Disk.write` open files and fail as a file system does.
* `Disk.filesUnder` lists the files below a directory that are reached without entering a directory
  that is left out.
-/

namespace CreatorMigration

/-- Why a file operation fails. -/
inductive FileError where
  | notFound
  | notDirectory
  | isDirectory
  | notText
deriving DecidableEq

def FileError.message : FileError → String
  | notFound => "No such file or directory (os error 2)"
  | notDirectory => "Not a directory (os error 20)"
  | isDirectory => "Is a directory (os error 21)"
  | notText => "stream did not contain valid UTF-8"

inductive DiskEntry where
  | directory
  | text (content : String)
  /-- A file whose bytes are no UTF-8. -/
  | binary
deriving DecidableEq

/-- The names that lead from the root of the file system to an entry. -/
abbrev Location := List String

structure Disk where
  workingDirectory : Location
  entries : List (Location × DiskEntry)
deriving Inhabited

namespace Disk

/-! ## Entries -/

def entry? (disk : Disk) (location : Location) : Option DiskEntry :=
  if location = [] then some .directory else disk.entries.lookup location

def setEntry (disk : Disk) (location : Location) (entry : DiskEntry) : Disk :=
  { disk with
    entries := (location, entry) :: disk.entries.filter fun other => other.1 != location }

/-- Makes the directories that lead to a location, as far as there is nothing there yet. -/
def makeParents (disk : Disk) (location : Location) : Disk :=
  (List.range location.length).foldl
    (fun disk depth =>
      match disk.entry? (location.take depth) with
      | some _ => disk
      | none => disk.setEntry (location.take depth) .directory)
    disk

/-- Puts an entry in place together with the directories that lead to it. -/
def place (disk : Disk) (location : Location) (entry : DiskEntry) : Disk :=
  (disk.makeParents location).setEntry location entry

/-! ## Paths -/

/-- One step along a path, out of a directory. -/
def enter (location : Location) : Component → Location
  | .root => []
  | .current => location
  | .parent => location.dropLast
  | .name text => location ++ [text]

/-- Where a path leads if everything on its way is a directory. -/
def locationOf (disk : Disk) (path : Path) : Location :=
  path.components.foldl enter disk.workingDirectory

def follow (disk : Disk) (location : Location) : List Component → Except FileError Location
  | [] => .ok location
  | component :: rest =>
      match disk.entry? location with
      | none => .error .notFound
      | some .directory => disk.follow (enter location component) rest
      | some _ => .error .notDirectory

/-- Where a path leads, whether something is at its end or not; the empty path leads nowhere. -/
def locate (disk : Disk) (path : Path) : Except FileError Location :=
  if path.text = "" then .error .notFound else disk.follow disk.workingDirectory path.components

/-- What a path leads to. -/
def find (disk : Disk) (path : Path) : Except FileError (Location × DiskEntry) := do
  let location ← disk.locate path
  match disk.entry? location with
  | none => throw .notFound
  | some entry => return (location, entry)

/-! ## Reading and writing -/

def isFile (disk : Disk) (path : Path) : Bool :=
  match disk.find path with
  | .ok (_, .text _) | .ok (_, .binary) => !Text.hasEnd "/" path.text
  | _ => false

def read (disk : Disk) (path : Path) : Except FileError String :=
  match disk.find path with
  | .error reason => .error reason
  | .ok (_, .directory) => .error .isDirectory
  | .ok (_, .binary) => .error .notText
  | .ok (_, .text content) =>
      if Text.hasEnd "/" path.text then .error .notDirectory else .ok content

/-- Writes a whole file; the directory that it stands in must be there. -/
def write (disk : Disk) (path : Path) (content : String) : Except FileError Disk := do
  let location ← disk.locate path
  match disk.entry? location, disk.entry? location.dropLast with
  | some .directory, _ => throw .isDirectory
  | _, none => throw .notFound
  | _, some .directory => return disk.setEntry location (.text content)
  | _, some _ => throw .notDirectory

/-- Removes a directory with all that it holds. -/
def removeDirectory (disk : Disk) (path : Path) : Except FileError Disk := do
  match ← disk.find path with
  | (location, .directory) =>
      return { disk with
        entries := disk.entries.filter fun entry => !location.isPrefixOf entry.1 }
  | _ => throw .notDirectory

/-! ## Listing -/

def isFileEntry : DiskEntry → Bool
  | .directory => false
  | _ => true

/-- The names that lead from `base` to a location below it. -/
def below? (base location : Location) : Option Location :=
  if base.isPrefixOf location then some (location.drop base.length) else none

/-- The names from `base` on of the files at or below it; no directory that is left out is entered,
but `base` itself may be called anything. -/
def filesUnder (disk : Disk) (isLeftOut : String → Bool) (base : Location) : List Location :=
  disk.entries.filterMap fun (location, entry) =>
    if isFileEntry entry then
      (below? base location).filter fun names => !names.dropLast.any isLeftOut
    else none

end Disk

end CreatorMigration
