import CreatorMigration.Proofs.Migration.Settled

/-! # Second runs

A run leaves a project alone in which all units of its stores are settled. A first run settles the
reducers and pipelines that it passes over. A unit of actions that it passes over is settled only
until the migration of another store changes its text.
-/

namespace CreatorMigration

open Project Update

/-! ## Reports -/

theorem length_of_mapM_run {σ α β : Type} {step : α → StateM σ β} {items : List α} {answers : List β}
    {start finish : σ} (ran : (items.mapM step).run start = (answers, finish)) :
    answers.length = items.length := by
  induction items generalizing start answers with
  | nil => exact (congrArg List.length (Prod.mk.inj ran).1).symm
  | cons item rest inductionHypothesis =>
    obtain ⟨_, _, others, _, ranRest, rfl⟩ := mapM_cons_run_iff.1 ran
    rw [List.length_cons, List.length_cons, inductionHypothesis ranRest]

/-- The entries of a report are those of the three phases. -/
theorem forall_mem_storeEntries_iff {stores : List Store} {actions reducers : List UnitEntry}
    {pipelines : List (List UnitEntry)} (holds : UnitEntry → Prop)
    (actionsLength : actions.length = stores.length)
    (reducersLength : reducers.length = stores.length)
    (pipelinesLength : pipelines.length = stores.length) :
    (∀ entry ∈ (storeEntries stores actions reducers pipelines).flatMap StoreEntry.units,
        holds entry) ↔
      (∀ entry ∈ actions, holds entry) ∧ (∀ entry ∈ reducers, holds entry) ∧
        ∀ entry ∈ pipelines.flatten, holds entry := by
  induction stores generalizing actions reducers pipelines with
  | nil =>
    rw [List.length_eq_zero_iff.1 actionsLength, List.length_eq_zero_iff.1 reducersLength,
      List.length_eq_zero_iff.1 pipelinesLength]
    simp [storeEntries]
  | cons store stores inductionHypothesis =>
    obtain ⟨action, actions, rfl⟩ := List.exists_cons_of_length_eq_add_one actionsLength
    obtain ⟨reducer, reducers, rfl⟩ := List.exists_cons_of_length_eq_add_one reducersLength
    obtain ⟨own, pipelines, rfl⟩ := List.exists_cons_of_length_eq_add_one pipelinesLength
    have others := inductionHypothesis (Nat.succ.inj actionsLength) (Nat.succ.inj reducersLength)
      (Nat.succ.inj pipelinesLength)
    rw [storeEntries, List.flatMap_cons, List.forall_mem_append, others]
    simp only [storeEntry, StoreEntry.units, Option.toList_some, List.forall_mem_append,
      List.forall_mem_singleton, List.forall_mem_cons, List.flatten_cons]
    tauto

/-! ## Settled stores -/

/-- All units of the stores are settled. -/
structure Settled (config : Config) (pattern : Pattern) (stores : List Store) (project : Project) :
    Prop where
  actions : ∀ store ∈ stores,
    HoldsAt (SourceUnit.ActionsSettled config pattern) store.declaration project
  reducers : ∀ store ∈ stores, HoldsAt (SourceUnit.ReducerSettled config) store.reducer project
  pipelines : ∀ store ∈ stores, ∀ path ∈ store.pipelines,
    HoldsAt (SourceUnit.PipelinesSettled config) path project

/-- The report of a run that migrates nothing and leaves all texts as they are. -/
structure Idle (report : Report) (before after : Project) : Prop where
  noneMigrated : ∀ entry ∈ report.units, entry.outcome.isMigrated = false
  texts : SameTexts before after

section

variable {config : Config} {pattern : Pattern} {stores : List Store}

theorem Settled.of_sameTexts {before after : Project} (settled : Settled config pattern stores before)
    (same : SameTexts before after) : Settled config pattern stores after :=
  ⟨fun store member => (settled.actions store member).of_textAt?_eq
      SourceUnit.showsInText_actionsSettled (same.textAt?_eq _),
    fun store member => (settled.reducers store member).of_textAt?_eq
      SourceUnit.showsInText_reducerSettled (same.textAt?_eq _),
    fun store member path pathMember => (settled.pipelines store member path pathMember).of_textAt?_eq
      SourceUnit.showsInText_pipelinesSettled (same.textAt?_eq _)⟩

variable {start finish migrated registered wrapped : Project} {entries : List StoreEntry}
  {actions : List (UnitEntry × Option ActionTypes)} {reducers : List UnitEntry}
  {pipelines : List (List UnitEntry)}

namespace Phases

variable (phases : Phases config pattern stores start finish entries migrated actions registered
  reducers wrapped pipelines)

include phases

theorem map_fst_zip : (stores.zip (actions.map Prod.snd)).map Prod.fst = stores := by
  refine List.map_fst_zip ?_
  rw [List.length_map, length_of_mapM_run phases.actionPhase]

theorem forall_mem_units_iff (holds : UnitEntry → Prop) :
    (∀ entry ∈ entries.flatMap StoreEntry.units, holds entry) ↔
      (∀ answer ∈ actions, holds answer.1) ∧ (∀ entry ∈ reducers, holds entry) ∧
        ∀ entry ∈ pipelines.flatten, holds entry := by
  obtain ⟨_, _, ranReducers⟩ := phases.reducerPhase
  obtain ⟨_, _, ranPipelines⟩ := phases.pipelinePhase
  have reducersLength := length_of_mapM_run ranReducers
  rw [← List.length_map Prod.fst, phases.map_fst_zip] at reducersLength
  rw [phases.entries_eq, forall_mem_storeEntries_iff holds
    (by rw [List.length_map, length_of_mapM_run phases.actionPhase]) reducersLength
    (length_of_mapM_run ranPipelines), List.forall_mem_map]

/-- A run of settled stores. -/
theorem left (settled : Settled config pattern stores start) :
    (∀ entry ∈ entries.flatMap StoreEntry.units, entry.outcome.isMigrated = false) ∧
      SameTexts start finish := by
  obtain ⟨answers, ran, noActions⟩ :=
    (stepSettles_actionPhase config pattern stores).left settled.actions
  obtain ⟨rfl, rfl⟩ := Prod.mk.inj (ran.symm.trans phases.actionPhase)
  obtain ⟨savedActions, sameActions, ranReducers⟩ := phases.reducerPhase
  have settledThen := settled.of_sameTexts sameActions
  obtain ⟨answers, ran, noReducers⟩ := (stepSettles_reducerPhase config _).left
    fun item member => settledThen.reducers item.1 (List.of_mem_zip member).1
  obtain ⟨rfl, rfl⟩ := Prod.mk.inj (ran.symm.trans ranReducers)
  obtain ⟨savedReducers, sameReducers, ranPipelines⟩ := phases.pipelinePhase
  obtain ⟨answers, ran, noPipelines⟩ := (stepSettles_pipelinePhase config stores).left
    (settledThen.of_sameTexts sameReducers).pipelines
  obtain ⟨rfl, rfl⟩ := Prod.mk.inj (ran.symm.trans ranPipelines)
  refine ⟨(phases.forall_mem_units_iff _).2 ⟨?_, ?_, ?_⟩,
    sameActions.trans (sameReducers.trans phases.saved)⟩
  · simpa using noActions
  · simpa using noReducers
  · simpa using noPipelines

/-- A run that passes over all units of its stores. -/
theorem settled (skips : ∀ entry ∈ entries.flatMap StoreEntry.units,
    entry.outcome.isSkipped = true) : Settled config pattern stores start := by
  obtain ⟨skipsActions, skipsReducers, skipsPipelines⟩ := (phases.forall_mem_units_iff _).1 skips
  obtain ⟨rfl, settledActions⟩ := (stepSettles_actionPhase config pattern stores).skipped
    phases.actionPhase (by simpa using skipsActions)
  obtain ⟨savedActions, sameActions, ranReducers⟩ := phases.reducerPhase
  obtain ⟨rfl, settledReducers⟩ := (stepSettles_reducerPhase config _).skipped ranReducers
    (by simpa using skipsReducers)
  obtain ⟨savedReducers, sameReducers, ranPipelines⟩ := phases.pipelinePhase
  obtain ⟨rfl, settledPipelines⟩ := (stepSettles_pipelinePhase config stores).skipped ranPipelines
    (by simpa using skipsPipelines)
  -- each phase left the texts as they were, so what it found settled was settled from the start
  refine ⟨settledActions, fun store member => ?_, fun store member path pathMember => ?_⟩
  · rw [← phases.map_fst_zip] at member
    obtain ⟨item, itemMember, rfl⟩ := List.mem_map.1 member
    exact (settledReducers item itemMember).of_textAt?_eq SourceUnit.showsInText_reducerSettled
      (sameActions.textAt?_eq _).symm
  · exact (settledPipelines store member path pathMember).of_textAt?_eq
      SourceUnit.showsInText_pipelinesSettled ((sameActions.trans sameReducers).textAt?_eq _).symm

end Phases

/-! ## Units that a run passes over -/

/-- What a run that passes over units of a store leaves of them. The actions are settled when no
migration behind their turn changes their text, a reducer and a unit of pipelines when no unit behind
them has the same path. -/
structure StoreStays (config : Config) (pattern : Pattern) (front : List Store) (store : Store)
    (back : List Store) (start finish : Project) (entry : StoreEntry) : Prop where
  actions : ∃ answers before, (front.mapM (actionStep config pattern)).run start = (answers, before) ∧
    ∀ unit ∈ entry.actions, unit.outcome.isSkipped = true →
      finish.textAt? store.declaration = before.textAt? store.declaration →
        HoldsAt (SourceUnit.ActionsSettled config pattern) store.declaration finish
  reducer : ∀ unit ∈ entry.reducer, unit.outcome.isSkipped = true →
    (∀ path ∈ back.map Store.reducer ++ (front ++ store :: back).flatMap Store.pipelines,
      store.reducer.Apart path) →
        HoldsAt (SourceUnit.ReducerSettled config) store.reducer finish
  pipelines : ∀ first path rest, store.pipelines = first ++ path :: rest →
    ∀ unit ∈ entry.pipelines[first.length]?, unit.outcome.isSkipped = true →
      (∀ other ∈ rest ++ back.flatMap Store.pipelines, path.Apart other) →
        HoldsAt (SourceUnit.PipelinesSettled config) path finish

/-- The turn of a unit that is passed over settles it for good if no later turn is its own. -/
theorem UnitTurn.settled {step : StateM Project UnitEntry} {path : Path} {earlier later : List Path}
    {entry : UnitEntry} {before after : Project} {property : SourceUnit → Prop}
    (turn : UnitTurn step path earlier later migrated finish entry before after)
    (settles : StepSettles step (fun entry => [entry]) (HoldsAt property path))
    (shows : SourceUnit.ShowsInText property) (skipped : entry.outcome.isSkipped = true)
    (apart : ∀ other ∈ later, path.Apart other) : HoldsAt property path finish := by
  obtain ⟨rfl, holds⟩ := settles.skipped turn.ran (List.forall_mem_singleton.2 skipped)
  exact holds.of_textAt?_eq shows (turn.stop apart)

theorem Phases.exists_storeStays {front back : List Store} {store : Store}
    (phases : Phases config pattern (front ++ store :: back) start finish entries migrated actions
      registered reducers wrapped pipelines) :
    ∃ entry, entries[front.length]? = some entry ∧
      StoreStays config pattern front store back start finish entry := by
  obtain ⟨before, after, earlierActions, laterActions, answer, acted⟩ :=
    exists_turn phases.actionPhase
  obtain ⟨earlierReducers, reducer, laterReducers, _, _, _, rfl, reducersLength, reducerTurn⟩ :=
    phases.exists_reducerTurn
  obtain ⟨earlierPipelines, own, laterPipelines, rfl, pipelinesLength, pipelineTurns⟩ :=
    phases.exists_pipelineTurns
  -- the entry of the store holds what its units answered in their turns
  refine ⟨storeEntry store answer.1 reducer own, ?_, ?_, ?_, ?_⟩
  · rw [phases.entries_eq, acted.answers_eq, List.map_append, List.map_cons]
    exact storeEntries_getElem? (by rw [List.length_map, acted.length_eq]) reducersLength
      pipelinesLength
  · refine ⟨earlierActions, before, acted.first, ?_⟩
    rintro _ ⟨⟩ skipped same
    obtain ⟨_, holds⟩ := (stepSettles_actionStep config pattern store).skipped acted.turn
      (List.forall_mem_singleton.2 skipped)
    exact holds.of_textAt?_eq SourceUnit.showsInText_actionsSettled same
  · rintro _ ⟨⟩ skipped apart
    exact reducerTurn.settled (stepSettles_reducerStep config store _)
      SourceUnit.showsInText_reducerSettled skipped apart
  · intro first path rest split unit listed skipped apart
    obtain ⟨entry, _, _, listedToo, turn⟩ := pipelineTurns first path rest split
    cases listedToo.symm.trans listed
    exact turn.settled (stepSettles_pipelineStep config path)
      SourceUnit.showsInText_pipelinesSettled skipped apart

end

/-- A class of the first store is told apart by the enum of the second. -/
def borrowingStores : List Store :=
  [{ name := "a"
     directory := ⟨""⟩
     declaration := ⟨"a.ts"⟩
     reducer := ⟨"a.reducer.ts"⟩
     pipelines := [] },
   { name := "b"
     directory := ⟨""⟩
     declaration := ⟨"b.ts"⟩
     reducer := ⟨"b.reducer.ts"⟩
     pipelines := [] }]

/-- The migration of the second store leaves an access to the `type` of a factory in the first, and
the enum of the first has a member of this name. -/
def borrowingWorkspace : Workspace :=
  { project := ofSources ⟨""⟩ {}
      [(⟨"a.ts"⟩, "import\x7bF\x7dfrom'./b';enum E\x7btype='e'\x7dclass X\x7btype=F.K\x7d"),
       (⟨"b.ts"⟩, "export enum F\x7bK='k'\x7dclass K\x7btype=F.K\x7d")]
    disk := default }

/-- A run and another one behind it. -/
def runTwice (config : Config) (pattern : Pattern) (dryRun : Bool) (stores : List Store) :
    Workspace.Task (Report × Workspace × Report) := do
  let report ← migrateStores config pattern dryRun stores
  let between ← get
  let reportThen ← migrateStores config pattern dryRun stores
  return (report, between, reportThen)

/-- All texts can be parsed, and the second run migrates the unit that the first one passed over. -/
structure MigratesLate (start between finish : Project) (report reportThen : Report) : Prop where
  parsed : ∀ unit ∈ start.units ++ between.units ++ finish.units, Tree.hasErrors unit.text = false
  skipped : ∃ entry ∈ report.units, entry.unit.text = "a.ts" ∧ entry.outcome.isSkipped = true
  migrated : ∃ entry ∈ reportThen.units, entry.unit.text = "a.ts" ∧ entry.outcome.isMigrated = true

theorem exists_borrowingRuns :
    ∃ pattern report between reportThen finish,
      migrateStores {} pattern true borrowingStores borrowingWorkspace = .ok report between ∧
        migrateStores {} pattern true borrowingStores between = .ok reportThen finish ∧
        MigratesLate borrowingWorkspace.project between.project finish.project report reportThen := by
  have succeeds : (({} : Config).aliasPattern?.any fun pattern =>
      succeedsWith
        (fun (report, between, reportThen) finish => decide
          ((∀ unit ∈ borrowingWorkspace.project.units ++ between.project.units ++
              finish.project.units, Tree.hasErrors unit.text = false) ∧
            (∃ entry ∈ report.units, entry.unit.text = "a.ts" ∧ entry.outcome.isSkipped = true) ∧
            ∃ entry ∈ reportThen.units, entry.unit.text = "a.ts" ∧
              entry.outcome.isMigrated = true))
        (runTwice {} pattern true borrowingStores borrowingWorkspace)) = true := by
    decide +kernel
  obtain ⟨pattern, _, succeeds⟩ := (Option.any_eq_true _ _).1 succeeds
  obtain ⟨⟨report, between, reportThen⟩, finish, ran, late⟩ := exists_of_succeedsWith succeeds
  obtain ⟨parsed, skipped, migrated⟩ := of_decide_eq_true late
  -- the two runs are taken apart again at the project between them
  obtain ⟨_, _, first, ran⟩ := bind_eq_ok_iff.1 ran
  obtain ⟨_, _, got, ran⟩ := bind_eq_ok_iff.1 ran
  obtain ⟨rfl, rfl⟩ := get_eq_ok_iff.1 got
  obtain ⟨_, _, second, answered⟩ := bind_eq_ok_iff.1 ran
  obtain ⟨same, rfl⟩ := pure_eq_ok_iff.1 answered
  cases same
  exact ⟨pattern, report, between, reportThen, _, first, second, parsed, skipped, migrated⟩

end CreatorMigration
