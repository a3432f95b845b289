import CreatorMigration.Migration.Run
import CreatorMigration.Proofs.Migration.Filtering
import CreatorMigration.Proofs.Migration.Registration
import CreatorMigration.Proofs.Project.Texts

/-! # The phases of a run

A run is a phase of actions, one of reducers and one of pipelines, with a save behind each. In a
phase each unit has its turn, and the turns of other units leave its text alone.
-/

namespace CreatorMigration

open Project Update

/-! ## Turns -/

section

variable {σ α β : Type} {step : α → StateM σ β} {item : α} {answers : List β} {start finish : σ}

/-- The turn of an item in a run through a list. -/
structure Turn (step : α → StateM σ β) (front back : List α) (item : α) (answers : List β)
    (start finish before after : σ) (earlier later : List β) (answer : β) : Prop where
  first : (front.mapM step).run start = (earlier, before)
  turn : (step item).run before = (answer, after)
  last : (back.mapM step).run after = (later, finish)
  answers_eq : answers = earlier ++ answer :: later
  length_eq : earlier.length = front.length

theorem mapM_cons_run_iff {rest : List α} :
    ((item :: rest).mapM step).run start = (answers, finish) ↔
      ∃ answer between others, (step item).run start = (answer, between) ∧
        (rest.mapM step).run between = (others, finish) ∧ answers = answer :: others := by
  cases turn : (step item).run start with
  | mk answer between =>
    cases last : (rest.mapM step).run between with
    | mk others result =>
      -- the run of the list is a function, so it is enough to know its value
      have joined : ((item :: rest).mapM step).run start = (answer :: others, result) := by
        rw [List.mapM_cons, StateT.run_bind, turn]
        change StateT.run (rest.mapM step >>= fun others => pure (answer :: others)) between = _
        rw [StateT.run_bind, last]
        rfl
      rw [joined]
      constructor
      · intro same
        obtain ⟨rfl, rfl⟩ := Prod.mk.inj same
        exact ⟨answer, between, others, rfl, last, rfl⟩
      · rintro ⟨_, _, _, same, lastToo, rfl⟩
        obtain ⟨rfl, rfl⟩ := Prod.mk.inj same
        obtain ⟨rfl, rfl⟩ := Prod.mk.inj (last.symm.trans lastToo)
        rfl

/-- Each item of a list has its turn. -/
theorem exists_turn {front back : List α}
    (ran : ((front ++ item :: back).mapM step).run start = (answers, finish)) :
    ∃ before after earlier later answer,
      Turn step front back item answers start finish before after earlier later answer := by
  induction front generalizing start answers with
  | nil =>
    obtain ⟨answer, between, others, turn, rest, rfl⟩ := mapM_cons_run_iff.1 ran
    exact ⟨start, between, [], others, answer, rfl, turn, rest, rfl, rfl⟩
  | cons first front inductionHypothesis =>
    obtain ⟨answer, between, others, turn, rest, rfl⟩ := mapM_cons_run_iff.1 ran
    obtain ⟨before, after, earlier, later, middle, had⟩ := inductionHypothesis rest
    refine ⟨before, after, answer :: earlier, later, middle, ?_, had.turn, had.last, ?_, ?_⟩
    · exact mapM_cons_run_iff.2 ⟨answer, between, earlier, turn, had.first, rfl⟩
    · rw [had.answers_eq]
      rfl
    · rw [List.length_cons, List.length_cons, had.length_eq]

end

/-! ## What turns leave alone -/

/-- Paths that name no common unit. -/
def Path.Apart (left right : Path) : Prop := (left.normalize == right.normalize) = false

/-- An activity that leaves the text at a path alone. -/
def LeavesText {α : Type} (path : Path) (change : StateM Project α) : Prop :=
  ∀ project, (change.run project).2.textAt? path = project.textAt? path

theorem leavesText_mapM {α β : Type} {path : Path} {step : α → StateM Project β} {items : List α}
    (each : ∀ item ∈ items, LeavesText path (step item)) : LeavesText path (items.mapM step) := by
  induction items with
  | nil => exact fun project => rfl
  | cons item rest inductionHypothesis =>
    intro project
    cases ran : ((item :: rest).mapM step).run project with
    | mk answers finish =>
      obtain ⟨answer, between, others, turn, last, _⟩ := mapM_cons_run_iff.1 ran
      have first := each item List.mem_cons_self project
      have others := inductionHypothesis (fun other member =>
        each other (List.mem_cons_of_mem _ member)) between
      rw [turn] at first
      rw [last] at others
      exact others.trans first

theorem leavesText_of_changesOnly {α ε : Type} {path other : Path} {update : Update ε α}
    (only : ChangesOnly other update) (apart : path.Apart other) (project : Project) :
    (update.run project).2.textAt? path = project.textAt? path := by
  unfold textAt?
  rw [(only project).unit?_eq apart]

theorem leavesText_reducerStep (config : Config) {store : Store} (types : Option ActionTypes)
    {path : Path} (apart : path.Apart store.reducer) :
    LeavesText path (reducerStep config store types) :=
  leavesText_of_changesOnly (changesOnly_migrateReducer config store.reducer types) apart

theorem leavesText_pipelineStep (config : Config) {path other : Path} (apart : path.Apart other) :
    LeavesText path (pipelineStep config other) :=
  leavesText_of_changesOnly (changesOnly_migratePipelines config Pass.all other) apart

/-! ## Phases -/

theorem sameTexts_saveUnlessDry {dryRun : Bool} {workspace result : Workspace} {written : List Path}
    (ran : saveUnlessDry dryRun workspace = .ok written result) :
    SameTexts workspace.project result.project := by
  cases dryRun with
  | true =>
    obtain ⟨_, rfl⟩ := pure_eq_ok_iff.1 ran
    exact .refl _
  | false => exact Workspace.sameTexts_save ran

/-- The phases of a run, the projects between them, and what the report lists. -/
structure Phases (config : Config) (pattern : Pattern) (stores : List Store)
    (start finish : Project) (entries : List StoreEntry) (migrated : Project)
    (actions : List (UnitEntry × Option ActionTypes)) (registered : Project)
    (reducers : List UnitEntry) (wrapped : Project) (pipelines : List (List UnitEntry)) : Prop where
  actionPhase : (stores.mapM (actionStep config pattern)).run start = (actions, migrated)
  reducerPhase : ∃ saved, SameTexts migrated saved ∧
    ((stores.zip (actions.map Prod.snd)).mapM fun (store, types) =>
      reducerStep config store types).run saved = (reducers, registered)
  pipelinePhase : ∃ saved, SameTexts registered saved ∧
    (stores.mapM fun store : Store => store.pipelines.mapM (pipelineStep config)).run saved =
      (pipelines, wrapped)
  saved : SameTexts wrapped finish
  entries_eq : entries = storeEntries stores (actions.map Prod.fst) reducers pipelines

theorem exists_phases {config : Config} {pattern : Pattern} {dryRun : Bool} {stores : List Store}
    {workspace finish : Workspace} {report : Report}
    (ran : migrateStores config pattern dryRun stores workspace = .ok report finish) :
    ∃ migrated actions registered reducers wrapped pipelines,
      Phases config pattern stores workspace.project finish.project report.stores migrated actions
        registered reducers wrapped pipelines := by
  obtain ⟨actions, migrated, first, ran⟩ := bind_eq_ok_iff.1 ran
  obtain ⟨_, savedActions, firstSave, ran⟩ := bind_eq_ok_iff.1 ran
  obtain ⟨reducers, registered, second, ran⟩ := bind_eq_ok_iff.1 ran
  obtain ⟨_, savedReducers, secondSave, ran⟩ := bind_eq_ok_iff.1 ran
  obtain ⟨pipelines, wrapped, third, ran⟩ := bind_eq_ok_iff.1 ran
  obtain ⟨_, _, thirdSave, ran⟩ := bind_eq_ok_iff.1 ran
  obtain ⟨_, _, got, answered⟩ := bind_eq_ok_iff.1 ran
  obtain ⟨rfl, rfl⟩ := get_eq_ok_iff.1 got
  obtain ⟨rfl, rfl⟩ := pure_eq_ok_iff.1 answered
  exact ⟨migrated.project, actions, registered.project, reducers, wrapped.project, pipelines,
    (Workspace.onProject_eq_ok_iff.1 first).1,
    ⟨savedActions.project, sameTexts_saveUnlessDry firstSave,
      (Workspace.onProject_eq_ok_iff.1 second).1⟩,
    ⟨savedReducers.project, sameTexts_saveUnlessDry secondSave,
      (Workspace.onProject_eq_ok_iff.1 third).1⟩,
    sameTexts_saveUnlessDry thirdSave, rfl⟩

/-! ## Units of a run -/

theorem leavesText_pipelinePhase (config : Config) {path : Path} {stores : List Store}
    (apart : ∀ other ∈ stores.flatMap Store.pipelines, path.Apart other) :
    LeavesText path (stores.mapM fun store : Store => store.pipelines.mapM (pipelineStep config)) :=
  leavesText_mapM fun store member => leavesText_mapM fun other otherMember =>
    leavesText_pipelineStep config (apart other (List.mem_flatMap.2 ⟨store, member, otherMember⟩))

theorem leavesText_reducerPhase (config : Config) {path : Path} {stores : List Store}
    (types : List (Option ActionTypes))
    (apart : ∀ other ∈ stores.map Store.reducer, path.Apart other) :
    LeavesText path ((stores.zip types).mapM fun (store, types) => reducerStep config store types) := by
  refine leavesText_mapM ?_
  rintro ⟨store, types⟩ member
  exact leavesText_reducerStep config types
    (apart store.reducer (List.mem_map_of_mem (List.of_mem_zip member).1))

theorem LeavesText.textAt?_eq {α : Type} {path : Path} {change : StateM Project α}
    (leaves : LeavesText path change) {before after : Project} {answer : α}
    (ran : change.run before = (answer, after)) : after.textAt? path = before.textAt? path := by
  have same := leaves before
  rwa [ran] at same

/-- The turn of a unit in a run, behind the phase of actions. Its text is then the one that the phase of
actions left, and the text that its turn leaves is the final one, unless an earlier or a later unit
has the same path. -/
structure UnitTurn (step : StateM Project UnitEntry) (path : Path) (earlier later : List Path)
    (migrated finish : Project) (entry : UnitEntry) (before after : Project) : Prop where
  ran : step.run before = (entry, after)
  start : (∀ other ∈ earlier, path.Apart other) → before.textAt? path = migrated.textAt? path
  stop : (∀ other ∈ later, path.Apart other) → finish.textAt? path = after.textAt? path

section

variable {config : Config} {pattern : Pattern} {front back : List Store} {store : Store}
  {start finish migrated registered wrapped : Project} {entries : List StoreEntry}
  {actions : List (UnitEntry × Option ActionTypes)} {reducers : List UnitEntry}
  {pipelines : List (List UnitEntry)}

theorem Phases.exists_reducerTurn
    (phases : Phases config pattern (front ++ store :: back) start finish entries migrated actions
      registered reducers wrapped pipelines) :
    ∃ earlier entry later types before after, reducers = earlier ++ entry :: later ∧
      earlier.length = front.length ∧
      UnitTurn (reducerStep config store types) store.reducer (front.map Store.reducer)
        (back.map Store.reducer ++ (front ++ store :: back).flatMap Store.pipelines) migrated finish
        entry before after := by
  obtain ⟨_, _, earlierActions, laterActions, answer, acted⟩ := exists_turn phases.actionPhase
  obtain ⟨saved, sameActions, ran⟩ := phases.reducerPhase
  -- the reducer has its turn where its store stands, with the types that its actions answered
  rw [acted.answers_eq, List.map_append, List.map_cons,
    List.zip_append (by rw [List.length_map, acted.length_eq]), List.zip_cons_cons] at ran
  obtain ⟨before, after, earlier, later, entry, turn⟩ := exists_turn ran
  refine ⟨earlier, entry, later, answer.2, before, after, turn.answers_eq, ?_, turn.turn,
    fun apart => ?_, fun apart => ?_⟩
  · rw [turn.length_eq, List.length_zip, List.length_map, acted.length_eq, Nat.min_self]
  · rw [(leavesText_reducerPhase config _ apart).textAt?_eq turn.first, sameActions.textAt?_eq]
  · obtain ⟨savedReducers, sameSaved, ranPipelines⟩ := phases.pipelinePhase
    have others : registered.textAt? store.reducer = after.textAt? store.reducer :=
      (leavesText_reducerPhase config _ fun path member =>
        apart path (List.mem_append_left _ member)).textAt?_eq turn.last
    have wraps : wrapped.textAt? store.reducer = savedReducers.textAt? store.reducer :=
      (leavesText_pipelinePhase config fun path member =>
        apart path (List.mem_append_right _ member)).textAt?_eq ranPipelines
    rw [phases.saved.textAt?_eq, wraps, sameSaved.textAt?_eq, others]

theorem Phases.exists_pipelineTurns
    (phases : Phases config pattern (front ++ store :: back) start finish entries migrated actions
      registered reducers wrapped pipelines) :
    ∃ earlier own later, pipelines = earlier ++ own :: later ∧ earlier.length = front.length ∧
      ∀ first path rest, store.pipelines = first ++ path :: rest → ∃ entry before after,
        own[first.length]? = some entry ∧
          UnitTurn (pipelineStep config path) path
            ((front ++ store :: back).map Store.reducer ++ (front.flatMap Store.pipelines ++ first))
            (rest ++ back.flatMap Store.pipelines) migrated finish entry before after := by
  obtain ⟨savedActions, sameActions, ranReducers⟩ := phases.reducerPhase
  obtain ⟨saved, sameReducers, ran⟩ := phases.pipelinePhase
  obtain ⟨beforeStore, afterStore, earlier, later, own, turn⟩ := exists_turn ran
  refine ⟨earlier, own, later, turn.answers_eq, turn.length_eq, fun first path rest split => ?_⟩
  -- within the turn of its store the unit has a turn of its own
  have ranOwn := turn.turn
  rw [split] at ranOwn
  obtain ⟨before, after, earlierOwn, laterOwn, entry, turnOwn⟩ := exists_turn ranOwn
  refine ⟨entry, before, after, ?_, turnOwn.turn, fun apart => ?_, fun apart => ?_⟩
  · rw [turnOwn.answers_eq, ← turnOwn.length_eq, List.getElem?_append_right (Nat.le_refl _),
      Nat.sub_self, List.getElem?_cons_zero]
  · have reducersRan : registered.textAt? path = savedActions.textAt? path :=
      (leavesText_reducerPhase config _ fun other member =>
        apart other (List.mem_append_left _ member)).textAt?_eq ranReducers
    have otherStores : beforeStore.textAt? path = saved.textAt? path :=
      (leavesText_pipelinePhase config fun other member => apart other
        (List.mem_append_right _ (List.mem_append_left _ member))).textAt?_eq turn.first
    have others : before.textAt? path = beforeStore.textAt? path :=
      (leavesText_mapM fun other member => leavesText_pipelineStep config (apart other
        (List.mem_append_right _ (List.mem_append_right _ member)))).textAt?_eq turnOwn.first
    rw [others, otherStores, sameReducers.textAt?_eq, reducersRan, sameActions.textAt?_eq]
  · have others : afterStore.textAt? path = after.textAt? path :=
      (leavesText_mapM fun other member => leavesText_pipelineStep config
        (apart other (List.mem_append_left _ member))).textAt?_eq turnOwn.last
    have otherStores : wrapped.textAt? path = afterStore.textAt? path :=
      (leavesText_pipelinePhase config fun other member =>
        apart other (List.mem_append_right _ member)).textAt?_eq turn.last
    rw [phases.saved.textAt?_eq, otherStores, others]

end

/-- The entry of a store stands where the store stands. -/
theorem storeEntries_getElem? {front back : List Store} {store : Store}
    {frontActions backActions frontReducers backReducers : List UnitEntry}
    {frontPipelines backPipelines : List (List UnitEntry)} {actions reducer : UnitEntry}
    {pipelines : List UnitEntry} (actionsLength : frontActions.length = front.length)
    (reducersLength : frontReducers.length = front.length)
    (pipelinesLength : frontPipelines.length = front.length) :
    (storeEntries (front ++ store :: back) (frontActions ++ actions :: backActions)
      (frontReducers ++ reducer :: backReducers)
      (frontPipelines ++ pipelines :: backPipelines))[front.length]? =
        some (storeEntry store actions reducer pipelines) := by
  induction front generalizing frontActions frontReducers frontPipelines with
  | nil =>
    rw [List.length_eq_zero_iff.1 actionsLength, List.length_eq_zero_iff.1 reducersLength,
      List.length_eq_zero_iff.1 pipelinesLength]
    rfl
  | cons first front inductionHypothesis =>
    cases frontActions with
    | nil => cases actionsLength
    | cons firstActions frontActions =>
      cases frontReducers with
      | nil => cases reducersLength
      | cons firstReducer frontReducers =>
        cases frontPipelines with
        | nil => cases pipelinesLength
        | cons firstPipelines frontPipelines =>
          exact inductionHypothesis (Nat.succ.inj actionsLength) (Nat.succ.inj reducersLength)
            (Nat.succ.inj pipelinesLength)

end CreatorMigration
