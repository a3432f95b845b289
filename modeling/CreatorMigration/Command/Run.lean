import CreatorMigration.Command.Arguments
import CreatorMigration.Config.Files
import CreatorMigration.Migration.Run
import CreatorMigration.Preflight

/-! # Running commands

* `check` runs the preflight checks; it ends with 0 if they pass and with 1 if not.
* `migrate` refuses a project that does not pass unless it is told to skip the checks, and else
  migrates the named stores, or all of them, and prints the report.
* Whatever keeps a command from running ends with 2: faults of usage, of the configuration, of
  opening the project and of writing units.
-/

namespace CreatorMigration

/-- What a command prints, its exit code, and the files that it leaves behind. -/
structure CommandResult where
  exitCode : Nat
  standardOutput : String := ""
  standardError : String := ""
  disk : Disk

/-! ## Help -/

def aboutLine : String := "Migrates legacy NgRx stores to the creator-function API"

def versionLine : String := "store-morph 0.1.0\n"

/-- How the program or one of its commands is called. -/
def usageLine : Option CommandName → String
  | none => "Usage: store-morph <COMMAND>\n"
  | some .check => "Usage: store-morph check [OPTIONS]\n"
  | some .migrate => "Usage: store-morph migrate [OPTIONS] [STORE_DIR]...\n"

def sourceHelp : String :=
  "      --project <DIR>   Project root to migrate [default: .]\n" ++
  "      --config <FILE>   Configuration file (default: <project>/store-morph.toml)\n"

def helpText : Option CommandName → String
  | none =>
      aboutLine ++ "\n\n" ++ usageLine none ++ "\nCommands:\n" ++
        "  check    Run the pre-flight checks over all store units\n" ++
        "  migrate  Migrate stores: actions, then reducers, then effects\n" ++
        "  help     Print this message or the help of the given subcommand(s)\n" ++
        "\nOptions:\n  -h, --help     Print help\n  -V, --version  Print version\n"
  | some .check =>
      "Run the pre-flight checks over all store units\n\n" ++ usageLine (some .check) ++
        "\nOptions:\n" ++ sourceHelp ++ "  -h, --help            Print help\n"
  | some .migrate =>
      "Migrate stores: actions, then reducers, then effects\n\n" ++ usageLine (some .migrate) ++
        "\nArguments:\n  [STORE_DIR]...  Store directories (default: every store found)\n" ++
        "\nOptions:\n" ++ sourceHelp ++
        "      --dry-run         Do not write any file\n" ++
        "      --json            Print the run report as JSON\n" ++
        "      --skip-preflight  Migrate even when pre-flight checks fail\n" ++
        "  -h, --help            Print help\n"

def Stop.result (disk : Disk) : Stop → CommandResult
  | help command => { exitCode := 0, standardOutput := helpText command, disk }
  | version => { exitCode := 0, standardOutput := versionLine, disk }
  | missingCommand => { exitCode := 2, standardError := helpText none, disk }
  | invalid command error =>
      { exitCode := 2
        standardError :=
          "error: " ++ error.message ++ "\n\n" ++ usageLine command ++
            "\nFor more information, try \x27--help\x27.\n"
        disk }

/-! ## Commands -/

/-- Why a command stops without doing its work. -/
inductive CommandError where
  | configuration (error : ConfigError)
  | opening (root : Path) (error : ProjectError)
  | writing (error : ProjectError)

def CommandError.message : CommandError → String
  | configuration error => "loading configuration: " ++ error.message
  | opening root error => "opening project " ++ root.text ++ ": " ++ error.message
  | writing error => "writing migrated units: " ++ error.message

def CommandError.result (disk : Disk) (error : CommandError) : CommandResult :=
  { exitCode := 2, standardError := "error: " ++ error.message ++ "\n", disk }

namespace ProjectSource

def loadConfig (source : ProjectSource) (disk : Disk) : Except ConfigError Config :=
  match source.config with
  | some path => Config.load disk path
  | none => Config.discover disk source.root

/-- The configuration and the project, in this order. -/
def load (source : ProjectSource) (disk : Disk) : Except CommandError (Config × Project) := do
  let config ← (source.loadConfig disk).mapError .configuration
  let project ← (Project.load disk config.layout source.root).mapError (.opening source.root)
  return (config, project)

end ProjectSource

def Report.print (json : Bool) (report : Report) : String :=
  if json then report.toJson.render ++ "\n" else report.render

/-- Migrates the stores of a project that may be migrated. -/
def runMigration (faults : RunFaults) (config : Config) (pattern : Pattern)
    (options : MigrateOptions) (workspace : Workspace) : CommandResult :=
  let stores := Store.select config.naming workspace.project options.stores
  match (migrateStoresUnder faults config pattern options.dryRun stores).run workspace with
  | .ok report workspace =>
      { exitCode := 0, standardOutput := report.print options.json, disk := workspace.disk }
  | .error error workspace => (CommandError.writing error).result workspace.disk

namespace Command

def runCheck (config : Config) (project : Project) (disk : Disk) : CommandResult :=
  let report := Preflight.inspect config project
  { exitCode := if report.passed then 0 else 1, standardOutput := report.render, disk }

def runMigrate (faults : RunFaults) (config : Config) (project : Project)
    (options : MigrateOptions) (disk : Disk) : CommandResult :=
  let gate := Preflight.inspect config project
  if !options.skipPreflight && !gate.passed then
    { exitCode := 1, standardError := gate.render, disk }
  else
    match config.aliasPattern? with
    | some pattern => runMigration faults config pattern options { project, disk }
    | none =>
        (CommandError.configuration
          (.invalidPattern config.naming.aggregateAliasPattern)).result disk

def source : Command → ProjectSource
  | check source => source
  | migrate source _ => source

/-- Runs a command on a file system that refuses some of the writes. -/
def runUnder (faults : RunFaults) (disk : Disk) (command : Command) : CommandResult :=
  match command.source.load disk with
  | .error error => error.result disk
  | .ok (config, project) =>
      match command with
      | check _ => runCheck config project disk
      | migrate _ options => runMigrate faults config project options disk

def run (disk : Disk) (command : Command) : CommandResult := command.runUnder .none disk

/-- Reads the arguments and runs the command that they name. -/
def runArgumentsUnder (faults : RunFaults) (disk : Disk) (arguments : List String) :
    CommandResult :=
  match ofArguments arguments with
  | .error stop => stop.result disk
  | .ok command => command.runUnder faults disk

def runArguments (disk : Disk) (arguments : List String) : CommandResult :=
  runArgumentsUnder .none disk arguments

end Command

end CreatorMigration
