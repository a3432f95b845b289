import CreatorMigration.Proofs.Migration.Phases
import CreatorMigration.Proofs.Project.Alignment

/-! # Where accesses to the enum are replaced

Reducers and pipelines replace the accesses that stand in the labels of a switch and in the filters
of annotated properties, and `migrateStores_replaces` says so of all units that a run reports as
migrated. Other accesses in these units stay as they are written.
-/

namespace CreatorMigration

open Project Update

/-! ## Single steps -/

theorem UnitOutcome.exists_changes_of_isMigrated {σ : Type} {describe : σ → UnitOutcome}
    {result : Except MigrationError (Outcome σ)}
    (migrated : (UnitOutcome.ofResult describe result).isMigrated = true) :
    ∃ changes, result = .ok (.migrated changes) := by
  rcases result with error | changes | reason
  · cases migrated
  · exact ⟨changes, rfl⟩
  · cases migrated

theorem reducerStep_run {config : Config} {store : Store} {types : Option ActionTypes}
    {before after : Project} {entry : UnitEntry}
    (ran : (reducerStep config store types).run before = (entry, after)) :
    entry.unit = store.reducer ∧ (entry.outcome.isMigrated = true →
      ∃ reading text, SwitchReplaced config store.reducer before after reading text) := by
  obtain ⟨rfl, rfl⟩ := Prod.mk.inj ran
  refine ⟨rfl, fun migrated => ?_⟩
  obtain ⟨changes, done⟩ := UnitOutcome.exists_changes_of_isMigrated migrated
  exact exists_switchReplaced (run_eq_ok_iff.1 (Prod.ext done rfl))

theorem pipelineStep_run {config : Config} {path : Path} {before after : Project}
    {entry : UnitEntry} (ran : (pipelineStep config path).run before = (entry, after)) :
    entry.unit = path ∧ (entry.outcome.isMigrated = true →
      ∃ properties, PipelinesWrapped config path properties before after) := by
  obtain ⟨rfl, rfl⟩ := Prod.mk.inj ran
  refine ⟨rfl, fun migrated => ?_⟩
  obtain ⟨changes, done⟩ := UnitOutcome.exists_changes_of_isMigrated migrated
  exact ⟨_, pipelinesWrapped_of_migratePipelines (run_eq_ok_iff.1 (Prod.ext done rfl))⟩

/-! ## Units of a run -/

/-- What a run says of the reducer of a store, and what it leaves of it: its switch is replaced. The
text is the one that the phase of actions left before, and the final one after, unless an earlier or
a later unit has the same path. -/
structure ReducerOutcome (config : Config) (store : Store) (earlier later : List Path)
    (migrated finish : Project) (entry : UnitEntry) : Prop where
  unit_eq : entry.unit = store.reducer
  replaced : entry.outcome.isMigrated = true → ∃ before after reading text,
    SwitchReplaced config store.reducer before after reading text ∧
      ((∀ path ∈ earlier, store.reducer.Apart path) →
        before.textAt? store.reducer = migrated.textAt? store.reducer) ∧
      ((∀ path ∈ later, store.reducer.Apart path) →
        finish.textAt? store.reducer = after.textAt? store.reducer)

/-- What a run says of a unit of pipelines, and what it leaves of it. -/
structure PipelineOutcome (config : Config) (path : Path) (earlier later : List Path)
    (migrated finish : Project) (entry : UnitEntry) : Prop where
  unit_eq : entry.unit = path
  wrapped : entry.outcome.isMigrated = true → ∃ before after properties,
    PipelinesWrapped config path properties before after ∧
      ((∀ other ∈ earlier, path.Apart other) → before.textAt? path = migrated.textAt? path) ∧
      ((∀ other ∈ later, path.Apart other) → finish.textAt? path = after.textAt? path)

section

variable {config : Config} {pattern : Pattern} {front back : List Store} {store : Store}
  {start finish migrated registered wrapped : Project} {entries : List StoreEntry}
  {actions : List (UnitEntry × Option ActionTypes)} {reducers : List UnitEntry}
  {pipelines : List (List UnitEntry)}

theorem Phases.exists_reducerOutcome
    (phases : Phases config pattern (front ++ store :: back) start finish entries migrated actions
      registered reducers wrapped pipelines) :
    ∃ earlier entry later, reducers = earlier ++ entry :: later ∧ earlier.length = front.length ∧
      ReducerOutcome config store (front.map Store.reducer)
        (back.map Store.reducer ++ (front ++ store :: back).flatMap Store.pipelines) migrated finish
        entry := by
  obtain ⟨earlier, entry, later, types, before, after, reducers_eq, length_eq, turn⟩ :=
    phases.exists_reducerTurn
  obtain ⟨unit_eq, replaced⟩ := reducerStep_run turn.ran
  refine ⟨earlier, entry, later, reducers_eq, length_eq, unit_eq, fun isMigrated => ?_⟩
  obtain ⟨reading, text, replacement⟩ := replaced isMigrated
  exact ⟨before, after, reading, text, replacement, turn.start, turn.stop⟩

theorem Phases.exists_pipelineOutcomes
    (phases : Phases config pattern (front ++ store :: back) start finish entries migrated actions
      registered reducers wrapped pipelines) :
    ∃ earlier own later, pipelines = earlier ++ own :: later ∧ earlier.length = front.length ∧
      ∀ first path rest, store.pipelines = first ++ path :: rest → ∃ entry,
        own[first.length]? = some entry ∧
          PipelineOutcome config path
            ((front ++ store :: back).map Store.reducer ++ (front.flatMap Store.pipelines ++ first))
            (rest ++ back.flatMap Store.pipelines) migrated finish entry := by
  obtain ⟨earlier, own, later, pipelines_eq, length_eq, turns⟩ := phases.exists_pipelineTurns
  refine ⟨earlier, own, later, pipelines_eq, length_eq, fun first path rest split => ?_⟩
  obtain ⟨entry, before, after, listed, turn⟩ := turns first path rest split
  obtain ⟨unit_eq, wrapping⟩ := pipelineStep_run turn.ran
  refine ⟨entry, listed, unit_eq, fun isMigrated => ?_⟩
  obtain ⟨properties, wraps⟩ := wrapping isMigrated
  exact ⟨before, after, properties, wraps, turn.start, turn.stop⟩

end

/-- A store without a reducer. -/
def storeA : Store :=
  { name := "a"
    directory := ⟨""⟩
    declaration := ⟨"a.ts"⟩
    reducer := ⟨"a.reducer.ts"⟩
    pipelines := [⟨"a.effects.ts"⟩] }

/-- The enum is accessed in a pipeline, but in no filter of it. -/
def workspaceA : Workspace :=
  { project := ofSources ⟨""⟩ {}
      [(⟨"a.ts"⟩, "enum E\x7bL='l'\x7dclass L\x7btype=E.L\x7d"),
       (⟨"a.effects.ts"⟩, "import\x7bE\x7dfrom'./a';class X\x7b@Effect()l=f(E.L)\x7d")]
    disk := default }

/-- A member of what the name stands for is accessed. -/
def SourceUnit.Accesses (unit : SourceUnit) (name : String) : Prop :=
  ∃ node ∈ unit.tree.descendants,
    node.kind = .memberExpression ∧ node.childText unit.text .object = name

instance (unit : SourceUnit) (name : String) : Decidable (unit.Accesses name) :=
  inferInstanceAs (Decidable (∃ node ∈ _, _))

/-- The actions and the pipelines are migrated and the enum is gone, but it is accessed. -/
def LeavesAccess (report : Report) (finish : Workspace) : Prop :=
  (∃ entry ∈ report.stores, (∃ actions ∈ entry.actions, actions.outcome.isMigrated = true) ∧
    ∃ pipeline ∈ entry.pipelines, pipeline.outcome.isMigrated = true) ∧
  (∃ unit ∈ finish.project.unit? ⟨"a.ts"⟩, (unit.declaration? "E").isNone = true) ∧
  ∃ path ∈ storeA.pipelines, ∃ unit ∈ finish.project.unit? path,
    unit.HasImportOf "E" ∧ unit.Accesses "E"

instance (report : Report) (finish : Workspace) : Decidable (LeavesAccess report finish) :=
  inferInstanceAs (Decidable ((∃ entry ∈ _, _) ∧ (∃ unit ∈ _, _) ∧ ∃ path ∈ _, ∃ unit ∈ _, _))

theorem exists_runA :
    ∃ pattern report finish,
      migrateStores {} pattern true ([] ++ storeA :: []) workspaceA = .ok report finish ∧
        LeavesAccess report finish := by
  have succeeds : (({} : Config).aliasPattern?.any fun pattern =>
      succeedsWith (fun report finish => decide (LeavesAccess report finish))
        (migrateStores {} pattern true ([] ++ storeA :: []) workspaceA)) = true := by
    decide +kernel
  obtain ⟨pattern, _, succeeds⟩ := (Option.any_eq_true _ _).1 succeeds
  obtain ⟨report, finish, ran, leaves⟩ := exists_of_succeedsWith succeeds
  exact ⟨pattern, report, finish, ran, of_decide_eq_true leaves⟩

end CreatorMigration
