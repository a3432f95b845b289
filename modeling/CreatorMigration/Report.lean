import CreatorMigration.Json
import CreatorMigration.Migration.Outcome

/-! # Run reports

What a run did to every unit of every store, as a text for people and as a JSON document.

* `Report.tally` counts the units by how their migration ended.
* `Report.dependencies` lists the labels that stores borrow from other stores.
-/

namespace CreatorMigration

/-- How the migration of a unit ended. -/
inductive UnitOutcome where
  | migrated (detail : String) (references : Nat) (dependencies : List String)
  | skipped (reason : SkipReason)
  | failed (error : String)

structure UnitEntry where
  unit : Path
  outcome : UnitOutcome

structure StoreEntry where
  name : String
  directory : Path
  actions : Option UnitEntry
  reducer : Option UnitEntry
  pipelines : List UnitEntry

def StoreEntry.units (entry : StoreEntry) : List UnitEntry :=
  entry.actions.toList ++ entry.reducer.toList ++ entry.pipelines

structure Report where
  dryRun : Bool
  stores : List StoreEntry
  /-- The units written to files. -/
  written : List Path
  /-- The units with another text than at the start, written or not. -/
  changed : List Path

/-! ## Counts and dependencies -/

namespace UnitOutcome

def isMigrated : UnitOutcome → Bool
  | migrated .. => true
  | _ => false

def isSkipped : UnitOutcome → Bool
  | skipped _ => true
  | _ => false

def isFailed : UnitOutcome → Bool
  | failed _ => true
  | _ => false

def dependencies : UnitOutcome → List String
  | migrated _ _ dependencies => dependencies
  | _ => []

end UnitOutcome

structure OutcomeTally where
  migrated : Nat
  skipped : Nat
  failed : Nat

namespace Report

def units (report : Report) : List UnitEntry := report.stores.flatMap StoreEntry.units

def count (report : Report) (holds : UnitOutcome → Bool) : Nat :=
  report.units.countP fun unit => holds unit.outcome

def tally (report : Report) : OutcomeTally :=
  { migrated := report.count UnitOutcome.isMigrated
    skipped := report.count UnitOutcome.isSkipped
    failed := report.count UnitOutcome.isFailed }

def anyFailed (report : Report) : Bool := decide (0 < report.tally.failed)

/-- The name of each borrowing store with the label that it borrows. -/
def dependencies (report : Report) : List (String × String) :=
  report.stores.flatMap fun store =>
    store.units.flatMap fun unit =>
      unit.outcome.dependencies.map fun label => (store.name, label)

end Report

/-! ## Text -/

/-- `text`, filled up with spaces to a width. -/
def padRight (width : Nat) (text : String) : String :=
  text ++ String.ofList (List.replicate (width - text.length) ' ')

def UnitOutcome.heading : UnitOutcome → String
  | migrated .. => "migrated"
  | skipped _ => "skipped"
  | failed _ => "FAILED"

def UnitOutcome.summary : UnitOutcome → String
  | migrated detail _ _ => detail
  | skipped reason => reason.message
  | failed error => error

def UnitEntry.render (entry : UnitEntry) : String :=
  "  " ++ padRight 9 entry.outcome.heading ++ " " ++ entry.unit.text ++ ": " ++
    entry.outcome.summary ++ "\n"

def StoreEntry.render (entry : StoreEntry) : String :=
  entry.name ++ " (" ++ entry.directory.text ++ ")\n" ++
    String.join (entry.units.map UnitEntry.render)

namespace Report

def renderDependencies : List (String × String) → String
  | [] => ""
  | dependencies =>
      "\n=== Cross-store dependencies ===\n" ++
        String.join (dependencies.map fun (store, label) =>
          "  " ++ store ++ " handles " ++ label ++ "\n")

def render (report : Report) : String :=
  let tally := report.tally
  "=== store-morph report ===\n\n" ++
    (if report.dryRun then "(dry run, nothing written)\n\n" else "") ++
    String.join (report.stores.map StoreEntry.render) ++
    renderDependencies report.dependencies ++
    "\nMigrated: " ++ toString tally.migrated ++ "  Skipped: " ++ toString tally.skipped ++
    "  Failed: " ++ toString tally.failed ++ "\n" ++
    "Units changed: " ++ toString report.changed.length ++ "  written: " ++
    toString report.written.length ++ "\n"

end Report

/-! ## JSON -/

def Path.toJson (path : Path) : Json := .text path.text

def SkipReason.toJson (reason : SkipReason) : Json :=
  .object (("kind", .text reason.label) ::
    match reason with
    | malformed detail => [("detail", .text detail)]
    | _ => [])

def UnitOutcome.jsonFields : UnitOutcome → List (String × Json)
  | migrated detail references dependencies =>
      [ ("status", .text "migrated"), ("detail", .text detail),
        ("references", .number references) ] ++
        if dependencies.isEmpty then []
        else [("dependencies", .list (dependencies.map Json.text))]
  | skipped reason => [("status", .text "skipped"), ("reason", reason.toJson)]
  | failed error => [("status", .text "failed"), ("error", .text error)]

def UnitEntry.toJson (entry : UnitEntry) : Json :=
  .object (("unit", entry.unit.toJson) :: entry.outcome.jsonFields)

def StoreEntry.toJson (entry : StoreEntry) : Json :=
  let unit (entry : Option UnitEntry) : Json := (entry.map UnitEntry.toJson).getD .null
  .object
    [ ("name", .text entry.name), ("dir", entry.directory.toJson),
      ("actions", unit entry.actions), ("reducer", unit entry.reducer),
      ("pipelines", .list (entry.pipelines.map UnitEntry.toJson)) ]

def Report.toJson (report : Report) : Json :=
  .object
    [ ("dry_run", .bool report.dryRun), ("stores", .list (report.stores.map StoreEntry.toJson)),
      ("written", .list (report.written.map Path.toJson)),
      ("changed", .list (report.changed.map Path.toJson)) ]

end CreatorMigration
