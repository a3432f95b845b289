import CreatorMigration.Command.Run

/-! # The command line

Looks at the files that a command may read, runs the command on them, writes the files that it
changed and prints what it says.
-/

namespace CreatorMigration

/-- A disk with the working directory of the process and nothing else. -/
def emptyDisk : IO Disk := do
  let directory : Path := ⟨(← IO.currentDir).toString⟩
  let disk : Disk := { workingDirectory := [], entries := [] }
  let location := disk.locationOf directory
  return { disk.place location .directory with workingDirectory := location }

/-- Adds a regular file with what it holds. -/
def addFile (disk : Disk) (path : String) : IO Disk := do
  let bytes ← IO.FS.readBinFile path
  let entry := match String.fromUTF8? bytes with
    | some text => DiskEntry.text text
    | none => DiskEntry.binary
  return disk.place (disk.locationOf ⟨path⟩) entry

/-- Adds the configuration file of a command, if it is there. -/
def addConfig (disk : Disk) (source : ProjectSource) : IO Disk := do
  let path := source.config.getD (source.root.under ⟨Config.fileName⟩)
  try addFile disk path.text catch _ => return disk

/-- Adds the directories and units below the root of a project. -/
def addProject (disk : Disk) (layout : ProjectLayout) (root : Path) : IO Disk := do
  let base := (← IO.currentDir) / root.text
  if ← base.isDir then
    let start := disk.place (disk.locationOf ⟨base.toString⟩) .directory
    let found ← base.walkDir fun directory =>
      return directory == base || !layout.isIgnored (directory.fileName.getD "")
    found.foldlM (fun disk path => do
      if ← path.isDir then return disk.place (disk.locationOf ⟨path.toString⟩) .directory
      else if layout.isUnitFile (path.fileName.getD "") then addFile disk path.toString
      else return disk) start
  else if ← base.pathExists then addFile disk base.toString
  else return disk

/-- The files that a command may read. -/
def visibleDisk (command : Command) : IO Disk := do
  let disk ← addConfig (← emptyDisk) command.source
  match command.source.loadConfig disk with
  | .ok config => addProject disk config.layout command.source.root
  | .error _ => return disk

/-- Writes every file whose text is not what it was. -/
def writeChanges (before after : Disk) : IO Unit :=
  after.entries.forM fun (location, entry) => do
    match entry with
    | .text content =>
        if before.entry? location != some entry then
          IO.FS.writeFile ("/" ++ Text.join "/" location) content
    | _ => return ()

def CommandResult.finish (result : CommandResult) : IO UInt32 := do
  IO.print result.standardOutput
  IO.eprint result.standardError
  return UInt32.ofNat result.exitCode

def runProcess (arguments : List String) : IO UInt32 := do
  match Command.ofArguments arguments with
  | .error stop => (stop.result default).finish
  | .ok command =>
      let disk ← visibleDisk command
      let result := command.run disk
      writeChanges disk result.disk
      result.finish

end CreatorMigration

def main (arguments : List String) : IO UInt32 := do
  try CreatorMigration.runProcess arguments
  catch failure =>
    IO.eprintln ("error: " ++ toString failure)
    return 2
