import CreatorMigration.Project.Update

/-! # Outcomes

How the migration of a unit ends: the unit is migrated, it is skipped for a `SkipReason`, or the
migration fails with a `MigrationError`. A skipped unit is no failure.
-/

namespace CreatorMigration

/-- Why a unit is left alone. -/
inductive SkipReason where
  | unitAbsent
  | alreadyMigrated
  | notActionUnit
  /-- Nearly an action unit, but for what `detail` says. -/
  | malformed (detail : String)
  | noReducerFunction
  | noAnnotatedPipelines
deriving DecidableEq

def SkipReason.message : SkipReason → String
  | unitAbsent => "unit absent"
  | alreadyMigrated => "already migrated"
  | notActionUnit => "not a valid action file"
  | malformed detail => "malformed: " ++ detail
  | noReducerFunction => "no reducing function"
  | noAnnotatedPipelines => "no annotated pipelines"

/-- The name of a reason in reports. -/
def SkipReason.label : SkipReason → String
  | unitAbsent => "unit_absent"
  | alreadyMigrated => "already_migrated"
  | notActionUnit => "not_action_unit"
  | malformed _ => "malformed"
  | noReducerFunction => "no_reducer_function"
  | noAnnotatedPipelines => "no_annotated_pipelines"

inductive Outcome (σ : Type) where
  | migrated (changes : σ)
  | skipped (reason : SkipReason)

/-- Why a unit cannot be migrated. -/
inductive MigrationError where
  /-- The reducing function has no switch statement. -/
  | missingSwitch (unit : Path) (function : String)
  /-- An annotated property holds no call. -/
  | unrecognizedPipeline (unit : Path) (property : String)
  | project (error : ProjectError)

namespace MigrationError

def message : MigrationError → String
  | missingSwitch unit function =>
      function ++ " in " ++ unit.text ++
        " does not include a switch statement, manual migration required"
  | unrecognizedPipeline unit property =>
      "pipeline property " ++ property ++ " in " ++ unit.text ++
        " is not a call expression, manual migration required"
  | project error => error.message

/-- Whether someone has to migrate the unit by hand. -/
def requiresHand : MigrationError → Bool
  | project _ => false
  | _ => true

end MigrationError

/-- A migration changes a project and may fail on its way. -/
abbrev Migration (α : Type) := Update MigrationError α

/-- Runs an update of the project as a part of a migration. -/
def Migration.lift {α : Type} (update : Update ProjectError α) : Migration α :=
  update.withError .project

end CreatorMigration
