import CreatorMigration.Migration.Action
import CreatorMigration.Migration.Pipeline
import CreatorMigration.Migration.Reducer
import CreatorMigration.Project.Files
import CreatorMigration.Report

/-! # Runs

A run migrates the actions of all stores, then all reducers and then all pipelines, and saves after
each of the three phases. A unit that fails is reported, and the run goes on with the next; only a
save that fails ends a run. A dry run saves nothing. `migrateStoresUnder` is a run on a file system
that refuses some of the writes.
-/

namespace CreatorMigration

/-! ## Single units -/

/-- Runs a migration to its end; what it changed before a failure stays changed. -/
def attempt {α : Type} (migration : Migration α) : StateM Project (Except MigrationError α) :=
  fun project => migration.run project

/-- The outcome that is reported for a migration, given a description of its changes. -/
def UnitOutcome.ofResult {σ : Type} (describe : σ → UnitOutcome) :
    Except MigrationError (Outcome σ) → UnitOutcome
  | .ok (.migrated changes) => describe changes
  | .ok (.skipped reason) => .skipped reason
  | .error error => .failed error.message

def ActionChanges.describe (changes : ActionChanges) : UnitOutcome :=
  .migrated
    (toString changes.actions ++ " action(s), " ++ toString changes.references ++
      " reference(s) in " ++ toString changes.units.length ++ " other unit(s)")
    changes.references []

def ReducerChanges.describe (changes : ReducerChanges) : UnitOutcome :=
  .migrated
    (toString changes.clauses ++ " clause(s), " ++ toString changes.registrations ++
      " registration(s)")
    0 changes.dependencies

def PipelineChanges.describe (changes : PipelineChanges) : UnitOutcome :=
  .migrated (toString changes.properties ++ " pipeline(s)") 0 []

/-- The types of the actions of a store, known when its actions were migrated. -/
def learnedTypes :
    Except MigrationError (Outcome (FactoryCatalog × ActionChanges)) → Option ActionTypes
  | .ok (.migrated (catalog, _)) => some catalog.types
  | _ => none

/-! ## Phases -/

def actionStep (config : Config) (pattern : Pattern) (store : Store) :
    StateM Project (UnitEntry × Option ActionTypes) := do
  let result ← attempt (migrateActions config pattern store.declaration)
  let outcome := UnitOutcome.ofResult (fun (_, changes) => changes.describe) result
  return ({ unit := store.declaration, outcome }, learnedTypes result)

def reducerStep (config : Config) (store : Store) (types : Option ActionTypes) :
    StateM Project UnitEntry := do
  let result ← attempt (migrateReducer config store.reducer types)
  return { unit := store.reducer, outcome := UnitOutcome.ofResult ReducerChanges.describe result }

def pipelineStep (config : Config) (path : Path) : StateM Project UnitEntry := do
  let result ← attempt (migratePipelines config Pass.all path)
  return { unit := path, outcome := UnitOutcome.ofResult PipelineChanges.describe result }

/-- Saves unless the run is dry, and lists the units that were written. -/
def saveUnlessDry (dryRun : Bool) : Workspace.Task (List Path) :=
  if dryRun then return [] else Workspace.save

def saveUnlessDryUnder (faults : Workspace.WriteFaults) (dryRun : Bool) :
    Workspace.Task (List Path) :=
  if dryRun then return [] else Workspace.saveUnder faults

/-! ## Whole runs -/

def storeEntry (store : Store) (actions reducer : UnitEntry) (pipelines : List UnitEntry) :
    StoreEntry :=
  { name := store.name, directory := store.directory, actions := some actions
    reducer := some reducer, pipelines }

def storeEntries : List Store → List UnitEntry → List UnitEntry → List (List UnitEntry) →
    List StoreEntry
  | store :: stores, actions :: allActions, reducer :: reducers, pipelines :: allPipelines =>
      storeEntry store actions reducer pipelines ::
        storeEntries stores allActions reducers allPipelines
  | _, _, _, _ => []

def migrateStores (config : Config) (pattern : Pattern) (dryRun : Bool) (stores : List Store) :
    Workspace.Task Report := do
  let actions ← Workspace.onProject (stores.mapM (actionStep config pattern))
  let first ← saveUnlessDry dryRun
  let reducers ← Workspace.onProject <|
    (stores.zip (actions.map Prod.snd)).mapM fun (store, types) => reducerStep config store types
  let second ← saveUnlessDry dryRun
  let pipelines ← Workspace.onProject <|
    stores.mapM fun store => store.pipelines.mapM (pipelineStep config)
  let third ← saveUnlessDry dryRun
  return {
    dryRun
    stores := storeEntries stores (actions.map Prod.fst) reducers pipelines
    written := (first ++ second ++ third).eraseDups
    changed := (← get).project.changedPaths }

/-! ## Runs whose saves may fail -/

/-- The phases of a run. -/
inductive Phase where
  | actions
  | reducers
  | pipelines
deriving DecidableEq

/-- Why a file system refuses to write some files when a run saves behind a phase. -/
abbrev RunFaults := Phase → Workspace.WriteFaults

def RunFaults.none : RunFaults := fun _ _ => Option.none

def migrateStoresUnder (faults : RunFaults) (config : Config) (pattern : Pattern) (dryRun : Bool)
    (stores : List Store) : Workspace.Task Report := do
  let actions ← Workspace.onProject (stores.mapM (actionStep config pattern))
  let first ← saveUnlessDryUnder (faults .actions) dryRun
  let reducers ← Workspace.onProject <|
    (stores.zip (actions.map Prod.snd)).mapM fun (store, types) => reducerStep config store types
  let second ← saveUnlessDryUnder (faults .reducers) dryRun
  let pipelines ← Workspace.onProject <|
    stores.mapM fun store => store.pipelines.mapM (pipelineStep config)
  let third ← saveUnlessDryUnder (faults .pipelines) dryRun
  return {
    dryRun
    stores := storeEntries stores (actions.map Prod.fst) reducers pipelines
    written := (first ++ second ++ third).eraseDups
    changed := (← get).project.changedPaths }

theorem migrateStoresUnder_none (config : Config) (pattern : Pattern) (dryRun : Bool)
    (stores : List Store) :
    migrateStoresUnder .none config pattern dryRun stores =
      migrateStores config pattern dryRun stores :=
  rfl

end CreatorMigration
