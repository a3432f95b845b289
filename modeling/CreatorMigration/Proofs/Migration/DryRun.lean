import CreatorMigration.Proofs.Migration.Phases
import CreatorMigration.Proofs.Migration.TextsOnly
import CreatorMigration.Proofs.Project.ActsOnTexts
import CreatorMigration.Proofs.Project.Loading

/-! # Dry runs

A dry run saves nothing. It ends with the texts and the report of a run that saves, because what is
saved is nothing that a migration asks for.
-/

namespace CreatorMigration

open Project Update

/-! ## Lists without repeats -/

theorem mem_of_mem_eraseDups {path : Path} :
    ∀ {paths : List Path}, path ∈ paths.eraseDups → path ∈ paths
  | first :: rest, member => by
    rw [List.eraseDups_cons] at member
    rcases List.mem_cons.1 member with rfl | member
    · exact List.mem_cons_self
    · exact List.mem_cons_of_mem _ (List.mem_of_mem_filter (mem_of_mem_eraseDups member))
termination_by paths => paths.length
decreasing_by exact Nat.lt_succ_of_le (List.length_filter_le _ _)

/-- What is left are paths of different units. -/
theorem pairwise_eraseDups :
    ∀ paths : List Path, paths.eraseDups.Pairwise fun left right => (left == right) = false
  | [] => List.Pairwise.nil
  | first :: rest => by
    rw [List.eraseDups_cons]
    refine List.pairwise_cons.2 ⟨fun other member => ?_, pairwise_eraseDups _⟩
    have different := (List.mem_filter.1 (mem_of_mem_eraseDups member)).2
    rw [Path.beq_comm]
    simpa using different
termination_by paths => paths.length
decreasing_by exact Nat.lt_succ_of_le (List.length_filter_le _ _)

/-- A path that is dropped is left in another spelling. -/
theorem exists_mem_eraseDups {path : Path} :
    ∀ {paths : List Path}, path ∈ paths → ∃ other ∈ paths.eraseDups, (other == path) = true
  | first :: rest, member => by
    rw [List.eraseDups_cons]
    cases same : path == first with
    | true => exact ⟨first, List.mem_cons_self, by rwa [Path.beq_comm]⟩
    | false =>
      have other : path ≠ first := by
        rintro rfl
        exact absurd (Path.beq_iff.2 rfl) (Bool.eq_false_iff.1 same)
      have kept : path ∈ rest.filter fun other => !other == first :=
        List.mem_filter.2 ⟨(List.mem_cons.1 member).resolve_left other, by simp [same]⟩
      obtain ⟨spelled, spelledMember, equal⟩ := exists_mem_eraseDups kept
      exact ⟨spelled, List.mem_cons_of_mem _ spelledMember, equal⟩
termination_by paths => paths.length
decreasing_by exact Nat.lt_succ_of_le (List.length_filter_le _ _)

/-! ## Phases -/

section

variable {α β : Type}

theorem actsOnTexts_attempt {migration : Migration α} (only : TextsOnly migration) :
    ActsOnTexts (attempt migration) :=
  actsOnTexts_run only

theorem actsOnTexts_mapM {step : α → StateM Project β} {items : List α}
    (each : ∀ item ∈ items, ActsOnTexts (step item)) : ActsOnTexts (items.mapM step) := by
  induction items with
  | nil => exact ⟨fun _ _ => rfl, fun _ => rfl⟩
  | cons item rest inductionHypothesis =>
    have first := each item List.mem_cons_self
    have others := inductionHypothesis fun other member =>
      each other (List.mem_cons_of_mem _ member)
    refine ⟨fun marking project => ?_, fun project => ?_⟩
    · cases ran : ((item :: rest).mapM step).run project with
      | mk answers finish =>
        obtain ⟨answer, between, later, turn, last, rfl⟩ := mapM_cons_run_iff.1 ran
        refine mapM_cons_run_iff.2 ⟨answer, between.remarked marking, later, ?_, ?_, rfl⟩
        · rw [first.remarked, turn]
        · rw [others.remarked, last]
    · cases ran : ((item :: rest).mapM step).run project with
      | mk answers finish =>
        obtain ⟨answer, between, later, turn, last, rfl⟩ := mapM_cons_run_iff.1 ran
        have firstPaths := first.paths_eq project
        have otherPaths := others.paths_eq between
        rw [turn] at firstPaths
        rw [last] at otherPaths
        exact otherPaths.trans firstPaths

end

theorem actsOnTexts_actionPhase (config : Config) (pattern : Pattern) (stores : List Store) :
    ActsOnTexts (stores.mapM (actionStep config pattern)) :=
  actsOnTexts_mapM fun store _ =>
    (actsOnTexts_attempt (textsOnly_migrateActions config pattern store.declaration)).map _

theorem actsOnTexts_reducerPhase (config : Config)
    (stores : List (Store × Option ActionTypes)) :
    ActsOnTexts (stores.mapM fun (store, types) => reducerStep config store types) :=
  actsOnTexts_mapM fun (store, types) _ =>
    (actsOnTexts_attempt (textsOnly_migrateReducer config store.reducer types)).map _

theorem actsOnTexts_pipelinePhase (config : Config) (stores : List Store) :
    ActsOnTexts (stores.mapM fun store => store.pipelines.mapM (pipelineStep config)) :=
  actsOnTexts_mapM fun _ _ => actsOnTexts_mapM fun path _ =>
    (actsOnTexts_attempt (textsOnly_migratePipelines config Pass.all path)).map _

/-! ## Two runs side by side -/

/-- A dry run of a project and a run that saves it, which has written some files so far. -/
structure Abreast (disk : Disk) (dry real : Workspace) (written : List Path) : Prop where
  disk_eq : dry.disk = disk
  same : SameButSaved dry.project real.project
  inStep : real.InStep
  listed : ∀ unit ∈ real.project.units, unit.saved = unit.loaded ∨ unit.path ∈ written

namespace Abreast

variable {disk : Disk} {dry real : Workspace} {written : List Path}
  (abreast : Abreast disk dry real written)

include abreast

theorem onProject {α : Type} {change : StateM Project α} (acts : ActsOnTexts change) :
    ∃ answer dryThen realThen, Workspace.onProject change dry = .ok answer dryThen ∧
      Workspace.onProject change real = .ok answer realThen ∧
      Abreast disk dryThen realThen written := by
  obtain ⟨answers, same⟩ := abreast.same.run acts
  refine ⟨(change.run dry.project).1, ⟨(change.run dry.project).2, dry.disk⟩,
    ⟨(change.run real.project).2, real.disk⟩, Workspace.onProject_eq_ok_iff.2 ⟨rfl, rfl⟩,
    Workspace.onProject_eq_ok_iff.2 ⟨Prod.ext answers rfl, rfl⟩, abreast.disk_eq, same, ?_, ?_⟩
  · exact acts.inStep abreast.inStep rfl
  · intro unit member
    obtain ⟨old, oldMember, samePath, sameMarks⟩ := acts.exists_before rfl member
    rw [← samePath, show unit.saved = old.saved from congrArg Marks.saved sameMarks.symm,
      show unit.loaded = old.loaded from congrArg Marks.loaded sameMarks.symm]
    exact abreast.listed old oldMember

theorem save :
    ∃ new realThen, saveUnlessDry true dry = .ok [] dry ∧
      saveUnlessDry false real = .ok new realThen ∧
      Abreast disk dry realThen (written ++ new) ∧
      ∀ unit ∈ realThen.project.units, unit.saved = unit.text := by
  obtain ⟨realDisk, saves, inStep⟩ := Workspace.exists_save abreast.inStep
  refine ⟨_, _, rfl, saves, ⟨abreast.disk_eq, abreast.same.saved, inStep, ?_⟩, ?_⟩
  · intro unit member
    obtain ⟨old, oldMember, rfl⟩ := List.mem_map.1 member
    cases unsaved : old.isUnsaved with
    | true =>
      have new := List.mem_map_of_mem (f := SourceUnit.path)
        (List.mem_filter.2 ⟨oldMember, unsaved⟩)
      exact .inr (List.mem_append_right _ new)
    -- a unit that is not written now was written before or never changed
    | false =>
      rw [SourceUnit.markSaved_of_saved unsaved]
      exact (abreast.listed old oldMember).imp_right (List.mem_append_left _)
  · intro unit member
    obtain ⟨old, _, rfl⟩ := List.mem_map.1 member
    rfl

end Abreast

/-! ## Whole runs -/

/-- What a dry run tells about a run that saves, and what that run leaves in the files. -/
structure Foretells (disk : Disk) (dry real : Report) (dryEnd realEnd : Workspace) : Prop where
  texts : SameTexts dryEnd.project realEnd.project
  stores_eq : dry.stores = real.stores
  changed_eq : dry.changed = real.changed
  untouched : dryEnd.disk = disk
  nothingWritten : dry.written = []
  file : ∀ unit ∈ realEnd.project.units, realEnd.disk.read unit.path = .ok unit.text
  distinct : real.written.Pairwise fun left right => (left == right) = false
  changedWritten : ∀ path ∈ real.changed, ∃ other ∈ real.written, (other == path) = true

/-- A dry run of a loaded project foretells the run that saves it, and both succeed. -/
theorem dryRun_foretells {disk : Disk} {layout : ProjectLayout} {root : Path} {project : Project}
    (proper : disk.HasProperNames) (loaded : Project.load disk layout root = .ok project)
    (config : Config) (pattern : Pattern) (stores : List Store) :
    ∃ dry real dryEnd realEnd,
      migrateStores config pattern true stores ⟨project, disk⟩ = .ok dry dryEnd ∧
      migrateStores config pattern false stores ⟨project, disk⟩ = .ok real realEnd ∧
      Foretells disk dry real dryEnd realEnd := by
  have start : Abreast disk ⟨project, disk⟩ ⟨project, disk⟩ [] := by
    refine ⟨rfl, sameButSaved_refl project, inStep_of_load proper loaded, fun unit member => ?_⟩
    obtain ⟨_, _, _, same⟩ := exists_of_load proper loaded member
    exact .inl same
  -- three times both runs take one phase, and then only the second one saves
  obtain ⟨actions, dryActions, realActions, dryFirst, realFirst, abreast⟩ :=
    start.onProject (actsOnTexts_actionPhase config pattern stores)
  obtain ⟨first, realSaved, drySave, realSave, abreast, _⟩ := abreast.save
  obtain ⟨reducers, dryReducers, realReducers, drySecond, realSecond, abreast⟩ :=
    abreast.onProject
      (actsOnTexts_reducerPhase config (stores.zip (actions.map Prod.snd)))
  obtain ⟨second, realSavedThen, drySaveThen, realSaveThen, abreast, _⟩ := abreast.save
  obtain ⟨pipelines, dryEnd, realPipelines, dryThird, realThird, abreast⟩ :=
    abreast.onProject (actsOnTexts_pipelinePhase config stores)
  obtain ⟨third, realEnd, drySaveEnd, realSaveEnd, abreast, allSaved⟩ := abreast.save
  refine ⟨_, _, dryEnd, realEnd,
    bind_eq_ok_iff.2 ⟨_, _, dryFirst, bind_eq_ok_iff.2 ⟨_, _, drySave,
      bind_eq_ok_iff.2 ⟨_, _, drySecond, bind_eq_ok_iff.2 ⟨_, _, drySaveThen,
        bind_eq_ok_iff.2 ⟨_, _, dryThird, bind_eq_ok_iff.2 ⟨_, _, drySaveEnd, rfl⟩⟩⟩⟩⟩⟩,
    bind_eq_ok_iff.2 ⟨_, _, realFirst, bind_eq_ok_iff.2 ⟨_, _, realSave,
      bind_eq_ok_iff.2 ⟨_, _, realSecond, bind_eq_ok_iff.2 ⟨_, _, realSaveThen,
        bind_eq_ok_iff.2 ⟨_, _, realThird, bind_eq_ok_iff.2 ⟨_, _, realSaveEnd, rfl⟩⟩⟩⟩⟩⟩,
    abreast.same.sameTexts, rfl, abreast.same.changedPaths_eq.symm, abreast.disk_eq, rfl, ?_,
    pairwise_eraseDups _, ?_⟩
  · intro unit member
    obtain ⟨location, file⟩ := abreast.inStep.file unit member
    rw [← allSaved unit member]
    exact file.read
  · intro path member
    obtain ⟨unit, unitMember, rfl⟩ := List.mem_map.1 member
    obtain ⟨inProject, changed⟩ := List.mem_filter.1 unitMember
    -- the last save leaves every unit as it is written, so a changed one has been written
    have unlike : unit.saved ≠ unit.loaded := by
      rw [allSaved unit inProject]
      simpa [SourceUnit.isChanged] using changed
    exact exists_mem_eraseDups ((abreast.listed unit inProject).resolve_left unlike)

/-- One unit of actions, in a file. -/
def oneUnitDisk : Disk :=
  { workingDirectory := []
    entries := [(["a.actions.ts"], .text "enum E\x7bL='l'\x7dclass L\x7btype=E.L\x7d")] }

def oneUnitProject : Project :=
  ofUnits ⟨"."⟩ {}
    [SourceUnit.ofText ⟨"a.actions.ts"⟩ "enum E\x7bL='l'\x7dclass L\x7btype=E.L\x7d"]

def oneUnitStore : Store :=
  { name := "a"
    directory := ⟨""⟩
    declaration := ⟨"a.actions.ts"⟩
    reducer := ⟨"a.reducer.ts"⟩
    pipelines := [] }

theorem dryRun_foretells_oneUnit :
    oneUnitDisk.HasProperNames ∧ Project.load oneUnitDisk {} ⟨"."⟩ = .ok oneUnitProject ∧
      ∃ pattern dry real dryEnd realEnd,
        migrateStores {} pattern true [oneUnitStore] ⟨oneUnitProject, oneUnitDisk⟩ =
          .ok dry dryEnd ∧
        migrateStores {} pattern false [oneUnitStore] ⟨oneUnitProject, oneUnitDisk⟩ =
          .ok real realEnd ∧
        Foretells oneUnitDisk dry real dryEnd realEnd ∧ dry.changed.isEmpty = false := by
  have proper : oneUnitDisk.HasProperNames := by
    simp [Disk.HasProperNames, oneUnitDisk, Component.IsSegment]
  have loaded : Project.load oneUnitDisk {} ⟨"."⟩ = .ok oneUnitProject := rfl
  have changes : (({} : Config).aliasPattern?.any fun pattern =>
      succeedsWith (fun report _ => !report.changed.isEmpty)
        (migrateStores {} pattern true [oneUnitStore] ⟨oneUnitProject, oneUnitDisk⟩)) = true := by
    decide +kernel
  obtain ⟨pattern, _, changes⟩ := (Option.any_eq_true _ _).1 changes
  obtain ⟨dry, real, dryEnd, realEnd, dryRan, realRan, foretells⟩ :=
    dryRun_foretells proper loaded {} pattern [oneUnitStore]
  rw [dryRan] at changes
  exact ⟨proper, loaded, pattern, dry, real, dryEnd, realEnd, dryRan, realRan, foretells,
    by simpa [succeedsWith] using changes⟩

end CreatorMigration
