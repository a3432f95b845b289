import CreatorMigration.Proofs.Migration.Phases
import Mathlib.Algebra.GroupWithZero.Nat

/-! # The schedule of a run

A run calls the migration of actions once for each store, then that of reducers with the types that
the actions of the same store made known, and then that of pipelines once for each path, whatever
the calls before came to. Only a save behind a phase can end it early: `RunEnds` has one constructor
for each such save and one for a run that is completed and reports on every call.
-/

namespace CreatorMigration

open Project Update

/-! ## Calls in turn -/

/-- Each call is made on what the one before it left, and the results are listed. -/
inductive InTurn {σ ι ρ : Type} (call : ι → σ → ρ × σ) : List ι → σ → List ρ → σ → Prop where
  | nil {state : σ} : InTurn call [] state [] state
  | cons {item : ι} {rest : List ι} {before between after : σ} {result : ρ} {results : List ρ}
      (first : call item before = (result, between))
      (others : InTurn call rest between results after) :
      InTurn call (item :: rest) before (result :: results) after

section

variable {σ ι α β ρ : Type}

namespace InTurn

variable {call : ι → σ → ρ × σ} {items front back : List ι} {before between after : σ}
  {results earlier later : List ρ}

theorem length_eq (turns : InTurn call items before results after) :
    results.length = items.length := by
  induction turns with
  | nil => rfl
  | cons _ _ inductionHypothesis => rw [List.length_cons, List.length_cons, inductionHypothesis]

theorem append (first : InTurn call front before earlier between)
    (second : InTurn call back between later after) :
    InTurn call (front ++ back) before (earlier ++ later) after := by
  induction first with
  | nil => exact second
  | cons turn _ inductionHypothesis => exact .cons turn (inductionHypothesis second)

end InTurn

variable {step : ι → StateM σ β} {start finish : σ}

/-- Steps that answer to the result of a call make the calls in turn. -/
theorem exists_inTurn (call : ι → StateM σ ρ) (answer : ι → ρ → β)
    (steps : ∀ item, step item = call item >>= fun result => pure (answer item result))
    {items : List ι} {answers : List β}
    (ran : (items.mapM step).run start = (answers, finish)) :
    ∃ results, InTurn (fun item => (call item).run) items start results finish ∧
      answers = List.zipWith answer items results := by
  induction items generalizing start answers with
  | nil =>
    obtain ⟨rfl, rfl⟩ := Prod.mk.inj ran
    exact ⟨[], .nil, rfl⟩
  | cons item rest inductionHypothesis =>
    obtain ⟨_, between, _, turn, others, rfl⟩ := mapM_cons_run_iff.1 ran
    obtain ⟨results, turns, rfl⟩ := inductionHypothesis others
    cases called : (call item).run start with
    | mk result left =>
      rw [steps, StateT.run_bind, called] at turn
      obtain ⟨rfl, rfl⟩ := Prod.mk.inj turn
      exact ⟨result :: results, .cons called turns, rfl⟩

/-- Where each item stands for a list of calls, all of them are made in turn. -/
theorem exists_inTurn_flatMap (call : ι → StateM σ ρ) (answer : ι → ρ → β)
    (steps : ∀ item, step item = call item >>= fun result => pure (answer item result))
    {inner : α → List ι} {items : List α} {answers : List (List β)}
    (ran : (items.mapM fun item => (inner item).mapM step).run start = (answers, finish)) :
    ∃ results : List (List ρ),
      InTurn (fun item => (call item).run) (items.flatMap inner) start results.flatten finish ∧
        List.Forall₂ (fun item own => own.length = (inner item).length) items results ∧
        answers = List.zipWith (fun item own => List.zipWith answer (inner item) own) items
          results := by
  induction items generalizing start answers with
  | nil =>
    obtain ⟨rfl, rfl⟩ := Prod.mk.inj ran
    exact ⟨[], .nil, .nil, rfl⟩
  | cons item rest inductionHypothesis =>
    obtain ⟨_, between, _, turn, others, rfl⟩ := mapM_cons_run_iff.1 ran
    obtain ⟨own, ownTurns, rfl⟩ := exists_inTurn call answer steps turn
    obtain ⟨results, turns, lengths, rfl⟩ := inductionHypothesis others
    exact ⟨own :: results, ownTurns.append turns, .cons ownTurns.length_eq lengths, rfl⟩

end

/-! ## Reports -/

/-- How a migration of a unit ends. -/
abbrev MigrationEnd (σ : Type) := Except MigrationError (Outcome σ)

abbrev ActionsEnd := MigrationEnd (FactoryCatalog × ActionChanges)

abbrev ReducerEnd := MigrationEnd ReducerChanges

abbrev PipelinesEnd := MigrationEnd PipelineChanges

/-- A unit is reported as failed just if its migration ended in an error. -/
inductive Reports {σ : Type} (describe : σ → UnitOutcome) :
    MigrationEnd σ → UnitOutcome → Prop where
  | migrated (changes : σ) (described : (describe changes).isMigrated = true) :
      Reports describe (.ok (.migrated changes)) (describe changes)
  | skipped (reason : SkipReason) : Reports describe (.ok (.skipped reason)) (.skipped reason)
  | failed (error : MigrationError) : Reports describe (.error error) (.failed error.message)

theorem reports_ofResult {σ : Type} {describe : σ → UnitOutcome}
    (migrates : ∀ changes, (describe changes).isMigrated = true) (result : MigrationEnd σ) :
    Reports describe result (UnitOutcome.ofResult describe result) := by
  match result with
  | .ok (.migrated changes) => exact .migrated changes (migrates changes)
  | .ok (.skipped reason) => exact .skipped reason
  | .error error => exact .failed error

/-- The entry of a store reports on the calls that were made for it. -/
structure StoreReported (store : Store) (acted : ActionsEnd) (registered : ReducerEnd)
    (wrapped : List PipelinesEnd) (entry : StoreEntry) : Prop where
  name_eq : entry.name = store.name
  directory_eq : entry.directory = store.directory
  actions : ∃ outcome, entry.actions = some ⟨store.declaration, outcome⟩ ∧
    Reports (fun (_, changes) => changes.describe) acted outcome
  reducer : ∃ outcome, entry.reducer = some ⟨store.reducer, outcome⟩ ∧
    Reports ReducerChanges.describe registered outcome
  paths_eq : entry.pipelines.map UnitEntry.unit = store.pipelines
  pipelines : List.Forall₂ (Reports PipelineChanges.describe) wrapped
    (entry.pipelines.map UnitEntry.outcome)

/-- There is one entry for each store, in the order of the stores. -/
inductive Reported : List Store → List ActionsEnd → List ReducerEnd → List (List PipelinesEnd) →
    List StoreEntry → Prop where
  | nil : Reported [] [] [] [] []
  | cons {store : Store} {acted : ActionsEnd} {registered : ReducerEnd}
      {wrapped : List PipelinesEnd} {entry : StoreEntry} {stores : List Store}
      {allActed : List ActionsEnd} {allRegistered : List ReducerEnd}
      {allWrapped : List (List PipelinesEnd)} {entries : List StoreEntry}
      (first : StoreReported store acted registered wrapped entry)
      (others : Reported stores allActed allRegistered allWrapped entries) :
      Reported (store :: stores) (acted :: allActed) (registered :: allRegistered)
        (wrapped :: allWrapped) (entry :: entries)

def actionsEntry (store : Store) (acted : ActionsEnd) : UnitEntry :=
  ⟨store.declaration, UnitOutcome.ofResult (fun (_, changes) => changes.describe) acted⟩

def reducerEntry (store : Store) (registered : ReducerEnd) : UnitEntry :=
  ⟨store.reducer, UnitOutcome.ofResult ReducerChanges.describe registered⟩

def pipelineEntry (path : Path) (wrapped : PipelinesEnd) : UnitEntry :=
  ⟨path, UnitOutcome.ofResult PipelineChanges.describe wrapped⟩

/-- The entries of some pipelines stand for their paths and report on their calls. -/
theorem zipWith_pipelineEntry {paths : List Path} {wrapped : List PipelinesEnd}
    (length : wrapped.length = paths.length) :
    (List.zipWith pipelineEntry paths wrapped).map UnitEntry.unit = paths ∧
      List.Forall₂ (Reports PipelineChanges.describe) wrapped
        ((List.zipWith pipelineEntry paths wrapped).map UnitEntry.outcome) := by
  induction paths generalizing wrapped with
  | nil =>
    obtain rfl := List.length_eq_zero_iff.1 length
    exact ⟨rfl, .nil⟩
  | cons path paths inductionHypothesis =>
    obtain ⟨result, results, rfl⟩ := List.exists_cons_of_length_eq_add_one length
    obtain ⟨units, outcomes⟩ := inductionHypothesis (Nat.succ.inj length)
    rw [List.zipWith_cons_cons, List.map_cons, units]
    exact ⟨rfl, .cons (reports_ofResult (fun _ => rfl) result) outcomes⟩

theorem storeReported_storeEntry {store : Store} (acted : ActionsEnd) (registered : ReducerEnd)
    {wrapped : List PipelinesEnd} (length : wrapped.length = store.pipelines.length) :
    StoreReported store acted registered wrapped
      (storeEntry store (actionsEntry store acted) (reducerEntry store registered)
        (List.zipWith pipelineEntry store.pipelines wrapped)) :=
  have ⟨units, outcomes⟩ := zipWith_pipelineEntry length
  { name_eq := rfl
    directory_eq := rfl
    actions := ⟨_, rfl, reports_ofResult (fun _ => rfl) acted⟩
    reducer := ⟨_, rfl, reports_ofResult (fun _ => rfl) registered⟩
    paths_eq := units
    pipelines := outcomes }

theorem reported_storeEntries {stores : List Store} {acted : List ActionsEnd}
    {registered : List ReducerEnd} {wrapped : List (List PipelinesEnd)}
    (actedLength : acted.length = stores.length)
    (registeredLength : registered.length = stores.length)
    (wrappedLengths : List.Forall₂ (fun store own => own.length = (Store.pipelines store).length)
      stores wrapped) :
    Reported stores acted registered wrapped
      (storeEntries stores (List.zipWith actionsEntry stores acted)
        (List.zipWith reducerEntry stores registered)
        (List.zipWith (fun store own => List.zipWith pipelineEntry store.pipelines own) stores
          wrapped)) := by
  induction wrappedLengths generalizing acted registered with
  | nil =>
    obtain rfl := List.length_eq_zero_iff.1 actedLength
    obtain rfl := List.length_eq_zero_iff.1 registeredLength
    exact .nil
  | cons ownLength _ inductionHypothesis =>
    obtain ⟨_, _, rfl⟩ := List.exists_cons_of_length_eq_add_one actedLength
    obtain ⟨_, _, rfl⟩ := List.exists_cons_of_length_eq_add_one registeredLength
    exact .cons (storeReported_storeEntry _ _ ownLength)
      (inductionHypothesis (Nat.succ.inj actedLength) (Nat.succ.inj registeredLength))

theorem StoreReported.length_units {store : Store} {acted : ActionsEnd} {registered : ReducerEnd}
    {wrapped : List PipelinesEnd} {entry : StoreEntry}
    (reported : StoreReported store acted registered wrapped entry) :
    entry.units.length = 2 + store.pipelines.length := by
  obtain ⟨_, actions, _⟩ := reported.actions
  obtain ⟨_, reducer, _⟩ := reported.reducer
  rw [← reported.paths_eq, List.length_map, StoreEntry.units, actions, reducer, List.length_append]
  rfl

theorem Reported.length_units {stores : List Store} {acted : List ActionsEnd}
    {registered : List ReducerEnd} {wrapped : List (List PipelinesEnd)} {entries : List StoreEntry}
    (reported : Reported stores acted registered wrapped entries) :
    (entries.flatMap StoreEntry.units).length =
      (stores.map fun store => 2 + store.pipelines.length).sum := by
  induction reported with
  | nil => rfl
  | cons first _ inductionHypothesis =>
    rw [List.flatMap_cons, List.length_append, first.length_units, inductionHypothesis,
      List.map_cons, List.sum_cons]

/-- Each unit is counted once. -/
theorem Report.tally_sum (report : Report) :
    report.tally.migrated + report.tally.skipped + report.tally.failed = report.units.length := by
  unfold tally count
  dsimp only
  induction report.units with
  | nil => rfl
  | cons entry entries inductionHypothesis =>
    obtain ⟨_, outcome⟩ := entry
    rw [List.length_cons, ← inductionHypothesis]
    cases outcome <;>
      simp only [List.countP_cons, UnitOutcome.isMigrated, UnitOutcome.isSkipped,
        UnitOutcome.isFailed, Bool.false_eq_true, if_true, if_false] <;>
      omega

/-! ## Ends of a run -/

/-- The calls of a phase are made in turn, and the files stay as they are. -/
structure CalledInTurn {ι ρ : Type} (call : ι → Project → ρ × Project) (items : List ι)
    (before : Workspace) (results : List ρ) (after : Workspace) : Prop where
  turns : InTurn call items before.project results after.project
  disk_eq : after.disk = before.disk

section

variable (config : Config) (pattern : Pattern) (dryRun : Bool) (stores : List Store)
  (start : Workspace)

/-- The first phase. -/
def ActionsCalled (acted : List ActionsEnd) (migrated : Workspace) : Prop :=
  CalledInTurn (fun store : Store => (migrateActions config pattern store.declaration).run) stores
    start acted migrated

/-- The first two phases; a reducer is migrated with the types that the actions of its own store
made known. -/
inductive ReducersCalled (acted : List ActionsEnd) (registered : List ReducerEnd)
    (switched : Workspace) : Prop where
  | behind {migrated saved : Workspace} {written : List Path}
      (acts : ActionsCalled config pattern stores start acted migrated)
      (saves : saveUnlessDry dryRun migrated = .ok written saved)
      (calls : CalledInTurn
        (fun (store, types) => (migrateReducer config (Store.reducer store) types).run)
        (stores.zip (acted.map learnedTypes)) saved registered switched)

/-- All three phases. -/
inductive PipelinesCalled (acted : List ActionsEnd) (registered : List ReducerEnd)
    (wrapped : List PipelinesEnd) (finished : Workspace) : Prop where
  | behind {switched saved : Workspace} {written : List Path}
      (registers : ReducersCalled config pattern dryRun stores start acted registered switched)
      (saves : saveUnlessDry dryRun switched = .ok written saved)
      (calls : CalledInTurn (fun path => (migratePipelines config Pass.all path).run)
        (stores.flatMap Store.pipelines) saved wrapped finished)

/-- A run ends early with the save behind one of its phases, or with a report on all calls. -/
inductive RunEnds : EStateM.Result ProjectError Workspace Report → Prop where
  | firstSave {acted : List ActionsEnd} {migrated left : Workspace} {error : ProjectError}
      (acts : ActionsCalled config pattern stores start acted migrated) (wet : dryRun = false)
      (fails : Workspace.save migrated = .error error left) : RunEnds (.error error left)
  | secondSave {acted : List ActionsEnd} {registered : List ReducerEnd}
      {switched left : Workspace} {error : ProjectError}
      (registers : ReducersCalled config pattern dryRun stores start acted registered switched)
      (wet : dryRun = false) (fails : Workspace.save switched = .error error left) :
      RunEnds (.error error left)
  | thirdSave {acted : List ActionsEnd} {registered : List ReducerEnd}
      {wrapped : List PipelinesEnd} {finished left : Workspace} {error : ProjectError}
      (wraps : PipelinesCalled config pattern dryRun stores start acted registered wrapped finished)
      (wet : dryRun = false) (fails : Workspace.save finished = .error error left) :
      RunEnds (.error error left)
  | completed {acted : List ActionsEnd} {registered : List ReducerEnd}
      {wrapped : List (List PipelinesEnd)} {finished finish : Workspace} {written : List Path}
      {report : Report}
      (wraps : PipelinesCalled config pattern dryRun stores start acted registered wrapped.flatten
        finished)
      (saves : saveUnlessDry dryRun finished = .ok written finish)
      (reported : Reported stores acted registered wrapped report.stores)
      (counted : report.tally.migrated + report.tally.skipped + report.tally.failed =
        (stores.map fun store => 2 + store.pipelines.length).sum) : RunEnds (.ok report finish)

variable {config pattern dryRun stores start}

theorem save_of_saveUnlessDry {workspace left : Workspace} {error : ProjectError}
    (fails : saveUnlessDry dryRun workspace = .error error left) :
    dryRun = false ∧ Workspace.save workspace = .error error left := by
  cases dryRun with
  | true => cases fails
  | false => exact ⟨rfl, fails⟩

/-- Letting the project change never fails. -/
theorem onProject_eq_ok {α : Type} {change : StateM Project α} {answer : α} {project : Project}
    (ran : change.run start.project = (answer, project)) :
    Workspace.onProject change start = .ok answer { start with project } :=
  Workspace.onProject_eq_ok_iff.2 ⟨ran, rfl⟩

theorem exists_actionsCalled {answers : List (UnitEntry × Option ActionTypes)} {migrated : Project}
    (ran : (stores.mapM (actionStep config pattern)).run start.project = (answers, migrated)) :
    ∃ acted, ActionsCalled config pattern stores start acted { start with project := migrated } ∧
      acted.length = stores.length ∧
      answers.map Prod.fst = List.zipWith actionsEntry stores acted ∧
      answers.map Prod.snd = acted.map learnedTypes := by
  obtain ⟨acted, turns, rfl⟩ := exists_inTurn
    (fun store : Store => attempt (migrateActions config pattern store.declaration))
    (fun store result => (actionsEntry store result, learnedTypes result)) (fun _ => rfl) ran
  have second : (stores.zip acted).map Prod.snd = acted :=
    List.map_snd_zip (Nat.le_of_eq turns.length_eq)
  refine ⟨acted, ⟨turns, rfl⟩, turns.length_eq, List.map_zipWith .., ?_⟩
  rw [List.map_zipWith, ← List.map_uncurry_zip_eq_zipWith]
  conv_rhs => rw [← second, List.map_map]
  rfl

theorem exists_reducersCalled {types : List (Option ActionTypes)} {entries : List UnitEntry}
    {switched : Project} (length : types.length = stores.length)
    (ran : ((stores.zip types).mapM fun (store, types) => reducerStep config store types).run
      start.project = (entries, switched)) :
    ∃ registered,
      CalledInTurn (fun (store, types) => (migrateReducer config (Store.reducer store) types).run)
        (stores.zip types) start registered { start with project := switched } ∧
      registered.length = stores.length ∧
      entries = List.zipWith reducerEntry stores registered := by
  obtain ⟨registered, turns, rfl⟩ := exists_inTurn
    (fun item : Store × Option ActionTypes => attempt (migrateReducer config item.1.reducer item.2))
    (fun item result => reducerEntry item.1 result) (fun _ => rfl) ran
  -- there are types for each store, so the pairs leave none of them out
  have stores_eq : (stores.zip types).map Prod.fst = stores :=
    List.map_fst_zip (Nat.le_of_eq length.symm)
  refine ⟨registered, ⟨turns, rfl⟩, ?_, ?_⟩
  · rw [turns.length_eq, ← List.length_map Prod.fst, stores_eq]
  · conv_rhs => rw [← stores_eq, List.zipWith_map_left]

theorem exists_pipelinesCalled {entries : List (List UnitEntry)} {finished : Project}
    (ran : (stores.mapM fun store : Store => store.pipelines.mapM (pipelineStep config)).run
      start.project = (entries, finished)) :
    ∃ wrapped : List (List PipelinesEnd),
      CalledInTurn (fun path => (migratePipelines config Pass.all path).run)
        (stores.flatMap Store.pipelines) start wrapped.flatten { start with project := finished } ∧
      List.Forall₂ (fun store own => own.length = (Store.pipelines store).length) stores wrapped ∧
      entries = List.zipWith (fun store own => List.zipWith pipelineEntry store.pipelines own)
        stores wrapped := by
  obtain ⟨wrapped, turns, lengths, rfl⟩ := exists_inTurn_flatMap
    (fun path => attempt (migratePipelines config Pass.all path)) pipelineEntry (fun _ => rfl) ran
  exact ⟨wrapped, ⟨turns, rfl⟩, lengths, rfl⟩

end

end CreatorMigration
