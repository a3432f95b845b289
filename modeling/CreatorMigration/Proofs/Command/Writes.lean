import CreatorMigration.Command.Run
import CreatorMigration.Proofs.Migration.DryRun

/-! # What the command line writes

A call of the program writes only when it may: when its arguments ask for a migration that is not
dry, the project can be loaded, and the gate has no violation or is skipped. Then it writes units of
the project and nothing else, and it lists them, unless the file system refuses one of them.
`Command.Ends` lists the ways in which a call ends, and `Command.ends_runArgumentsUnder` says that
there are no others, whatever writes are refused.
-/

namespace CreatorMigration

open Project Update

/-! ## Writes -/

/-- A text that is put into a file. -/
structure FileWrite where
  path : Path
  text : String

namespace Disk

/-- Files get other texts, one after the other. Each of them is there and held something else. -/
inductive Rewritten : Disk → List FileWrite → Disk → Prop where
  | nothing {disk : Disk} : Rewritten disk [] disk
  | next {disk between last : Disk} {path : Path} {old new : String} {rest : List FileWrite}
      (held : disk.read path = .ok old) (another : old ≠ new)
      (wrote : disk.write path new = .ok between) (others : Rewritten between rest last) :
      Rewritten disk (⟨path, new⟩ :: rest) last

namespace Rewritten

variable {disk between last : Disk} {front back : List FileWrite}

theorem append (first : Rewritten disk front between) (second : Rewritten between back last) :
    Rewritten disk (front ++ back) last := by
  induction first with
  | nothing => exact second
  | next held another wrote _ inductionHypothesis =>
    exact .next held another wrote (inductionHypothesis second)

/-- What no written path leads to stays as it is. -/
theorem entry?_eq {location : Location} (rewritten : Rewritten disk front last)
    (apart : ∀ write ∈ front, disk.locate write.path ≠ .ok location) :
    last.entry? location = disk.entry? location := by
  induction rewritten with
  | nothing => rfl
  | next held _ wrote _ inductionHypothesis =>
    obtain ⟨place, located, isText, _⟩ := exists_of_read held
    obtain ⟨written, locatedToo, rfl⟩ := exists_of_write wrote
    cases located.symm.trans locatedToo
    obtain ⟨notHere, notLater⟩ := List.forall_mem_cons.1 apart
    -- a text in place of another one changes no way, so the later writes miss the location too
    rw [inductionHypothesis fun write member => ?_]
    · refine entry?_setEntry_of_ne _ fun same => notHere ?_
      rw [located, same]
    · rw [locate_setEntry isText]
      exact notLater write member

end Rewritten

end Disk

/-! ## Saves -/

/-- A project was loaded with some units, and some writes into their files have been made since. -/
structure WritesSoFar (disk : Disk) (loaded : List Path) (writes : List FileWrite)
    (workspace : Workspace) : Prop where
  inStep : workspace.InStep
  paths_eq : workspace.project.paths = loaded
  rewritten : disk.Rewritten writes workspace.disk
  ofLoaded : ∀ write ∈ writes, write.path ∈ loaded

/-- How a save ends: it lists what it has written, or the file system refuses a unit. -/
inductive SaveWrites (faults : Workspace.WriteFaults) (disk : Disk) (loaded : List Path)
    (writes : List FileWrite) : EStateM.Result ProjectError Workspace (List Path) → Prop where
  | listed {new : List FileWrite} {after : Workspace}
      (soFar : WritesSoFar disk loaded (writes ++ new) after) :
      SaveWrites faults disk loaded writes (.ok (new.map FileWrite.path) after)
  | refused {new : List FileWrite} {after : Workspace} {path : Path} {reason : String}
      (soFar : WritesSoFar disk loaded (writes ++ new) after) (member : path ∈ loaded)
      (fault : faults path = some reason) :
      SaveWrites faults disk loaded writes (.error (.fileFailure path reason) after)

namespace WritesSoFar

variable {disk : Disk} {loaded : List Path} {writes : List FileWrite} {workspace : Workspace}

theorem onProject (soFar : WritesSoFar disk loaded writes workspace) {α : Type}
    {change : StateM Project α} (acts : ActsOnTexts change) :
    ∃ answer after, Workspace.onProject change workspace = .ok answer after ∧
      WritesSoFar disk loaded writes after :=
  ⟨(change.run workspace.project).1, ⟨(change.run workspace.project).2, workspace.disk⟩,
    Workspace.onProject_eq_ok_iff.2 ⟨rfl, rfl⟩, acts.inStep soFar.inStep rfl,
    (acts.paths_eq workspace.project).trans soFar.paths_eq, soFar.rewritten, soFar.ofLoaded⟩

/-- A unit that waits is written, and its file held another text. -/
theorem exists_writeUnit (soFar : WritesSoFar disk loaded writes workspace)
    {faults : Workspace.WriteFaults} {unit : SourceUnit} (member : unit ∈ workspace.project.units)
    (unsaved : unit.isUnsaved = true) (taken : faults unit.path = none) :
    ∃ after, Workspace.writeUnit faults unit workspace = .ok () after ∧
      after.project = workspace.project.savedAt [unit] ∧
      WritesSoFar disk loaded (writes ++ [⟨unit.path, unit.text⟩]) after := by
  obtain ⟨changed, wrote, ran, inStep⟩ := Workspace.exists_writeUnit soFar.inStep member taken
  have another : unit.text ≠ unit.saved := by
    simpa [SourceUnit.isUnsaved] using unsaved
  -- the project is in step, so the file holds what was saved last and not what waits
  obtain ⟨_, file⟩ := soFar.inStep.file unit member
  refine ⟨_, ran, rfl, inStep, (paths_savedAt [unit]).trans soFar.paths_eq,
    soFar.rewritten.append (.next file.read another.symm wrote .nothing), fun write isWritten => ?_⟩
  rcases List.mem_append.1 isWritten with before | now
  · exact soFar.ofLoaded write before
  · rw [List.mem_singleton.1 now, ← soFar.paths_eq]
    exact List.mem_map_of_mem member

theorem saveWrites_writeUnits (soFar : WritesSoFar disk loaded writes workspace)
    (faults : Workspace.WriteFaults) {units : List SourceUnit}
    (pending : ∀ unit ∈ units, unit ∈ workspace.project.units)
    (ordered : units.Pairwise fun left right => left.order right = .lt) :
    SaveWrites faults disk loaded writes (Workspace.writeUnits faults units workspace) := by
  -- on the units that are left, with more written in front of them each time
  induction units generalizing workspace writes with
  | nil => exact .listed (by rwa [List.append_nil])
  | cons unit rest inductionHypothesis =>
    obtain ⟨member, pendingRest⟩ := List.forall_mem_cons.1 pending
    obtain ⟨behind, orderedRest⟩ := List.pairwise_cons.1 ordered
    rw [Workspace.writeUnits]
    cases unsaved : unit.isUnsaved with
    | false => exact inductionHypothesis soFar pendingRest orderedRest
    | true =>
      rw [if_pos rfl]
      cases fault : faults unit.path with
      | some reason =>
        rw [bind_of_error (Workspace.writeUnit_of_fault fault)]
        have stillSoFar : WritesSoFar disk loaded (writes ++ []) workspace := by
          rwa [List.append_nil]
        refine .refused stillSoFar ?_ fault
        rw [← soFar.paths_eq]
        exact List.mem_map_of_mem member
      | none =>
        obtain ⟨after, wrote, project_eq, soFarThen⟩ := soFar.exists_writeUnit member unsaved fault
        rw [bind_of_ok wrote]
        have pendingThen : ∀ other ∈ rest, other ∈ after.project.units := by
          rw [project_eq]
          exact fun other otherMember =>
            mem_savedAt_of_behind (pendingRest other otherMember) (behind other otherMember)
        have ends := inductionHypothesis soFarThen pendingThen orderedRest
        -- what the others come to is what all come to, with this unit in front
        cases saved : Workspace.writeUnits faults rest after with
        | ok paths last =>
          rw [saved] at ends
          rw [bind_of_ok saved]
          cases ends with
          | listed soFarEnd =>
            rw [List.append_assoc] at soFarEnd
            exact .listed soFarEnd
        | error error last =>
          rw [saved] at ends
          rw [bind_of_error saved]
          cases ends with
          | refused soFarEnd refusedMember refusedFault =>
            rw [List.append_assoc] at soFarEnd
            exact .refused soFarEnd refusedMember refusedFault

theorem saveWrites (soFar : WritesSoFar disk loaded writes workspace)
    (faults : Workspace.WriteFaults) :
    SaveWrites faults disk loaded writes (Workspace.saveUnder faults workspace) :=
  soFar.saveWrites_writeUnits faults (fun _ member => member) workspace.project.ordered

end WritesSoFar

/-! ## Runs -/

/-- How a run that is not dry ends: it reports what it has written, or the file system refuses a
unit behind one of the phases. -/
inductive RunWrites (faults : RunFaults) (disk : Disk) (loaded : List Path) :
    EStateM.Result ProjectError Workspace Report → Prop where
  | reported {writes : List FileWrite} {report : Report} {finish : Workspace}
      (soFar : WritesSoFar disk loaded writes finish)
      (written_eq : report.written = (writes.map FileWrite.path).eraseDups) :
      RunWrites faults disk loaded (.ok report finish)
  | refused {writes : List FileWrite} {left : Workspace} {phase : Phase} {path : Path}
      {reason : String} (soFar : WritesSoFar disk loaded writes left) (member : path ∈ loaded)
      (fault : faults phase path = some reason) :
      RunWrites faults disk loaded (.error (.fileFailure path reason) left)

section

variable {faults : RunFaults} {disk : Disk} {loaded : List Path} {writes : List FileWrite}
  {start : Workspace}

/-- A phase and the save behind it go well, and the run goes on, or the save ends the run. -/
theorem WritesSoFar.runWrites_phase (soFar : WritesSoFar disk loaded writes start) {α : Type}
    {change : StateM Project α} (acts : ActsOnTexts change) {phase : Phase}
    {next : α → List Path → Workspace.Task Report}
    (goesOn : ∀ answer new after, WritesSoFar disk loaded (writes ++ new) after →
      RunWrites faults disk loaded (next answer (new.map FileWrite.path) after)) :
    RunWrites faults disk loaded
      ((Workspace.onProject change >>= fun answer =>
        saveUnlessDryUnder (faults phase) false >>= next answer) start) := by
  obtain ⟨answer, between, ran, soFarThen⟩ := soFar.onProject acts
  rw [bind_of_ok ran]
  have ends := soFarThen.saveWrites (faults phase)
  change RunWrites faults disk loaded
    ((Workspace.saveUnder (faults phase) >>= next answer) between)
  cases saved : Workspace.saveUnder (faults phase) between with
  | ok paths after =>
    rw [saved] at ends
    rw [bind_of_ok saved]
    cases ends with
    | listed soFarEnd => exact goesOn _ _ _ soFarEnd
  | error error left =>
    rw [saved] at ends
    rw [bind_of_error saved]
    cases ends with
    | refused soFarEnd member fault => exact .refused soFarEnd member fault

theorem runWrites_migrateStoresUnder (soFar : WritesSoFar disk loaded [] start)
    (faults : RunFaults) (config : Config) (pattern : Pattern) (stores : List Store) :
    RunWrites faults disk loaded (migrateStoresUnder faults config pattern false stores start) := by
  unfold migrateStoresUnder
  -- three phases, each on what the save in front of it has left
  refine soFar.runWrites_phase (actsOnTexts_actionPhase config pattern stores)
    fun actions first _ soFar => ?_
  refine soFar.runWrites_phase (actsOnTexts_reducerPhase config _) fun reducers second _ soFar => ?_
  refine soFar.runWrites_phase (actsOnTexts_pipelinePhase config stores)
    fun pipelines third finish soFar => ?_
  refine .reported soFar ?_
  simp only [List.nil_append, List.map_append]

/-- A dry run never fails and leaves the files alone. -/
theorem exists_dryRunUnder (faults : RunFaults) (config : Config) (pattern : Pattern)
    (stores : List Store) (start : Workspace) :
    ∃ report finish,
      migrateStoresUnder faults config pattern true stores start = .ok report finish ∧
        finish.disk = start.disk :=
  ⟨_, _, rfl, rfl⟩

end

/-! ## Loading -/

/-- A configuration that is read has a pattern for the aggregate alias. -/
theorem Config.exists_aliasPattern_of_load {disk : Disk} {path : Path} {config : Config}
    (loaded : Config.load disk path = .ok config) :
    ∃ pattern, config.aliasPattern? = some pattern := by
  unfold Config.load at loaded
  split at loaded
  · unfold Config.ofText at loaded
    split at loaded
    · cases loaded
    · split at loaded
      · next compiled =>
        cases loaded
        exact ⟨_, compiled⟩
      · cases loaded
  · cases loaded

namespace ProjectSource

variable {source : ProjectSource} {disk : Disk} {config : Config} {project : Project}

theorem exists_aliasPattern (loaded : source.loadConfig disk = .ok config) :
    ∃ pattern, config.aliasPattern? = some pattern := by
  unfold loadConfig at loaded
  split at loaded
  · exact Config.exists_aliasPattern_of_load loaded
  · unfold Config.discover at loaded
    dsimp only at loaded
    split at loaded
    · exact Config.exists_aliasPattern_of_load loaded
    -- without a file there are the defaults
    · cases loaded
      exact Option.isSome_iff_exists.1 (by decide +kernel)

theorem load_eq_ok (loads : source.load disk = .ok (config, project)) :
    source.loadConfig disk = .ok config ∧
      Project.load disk config.layout source.root = .ok project := by
  unfold load at loads
  cases configured : source.loadConfig disk with
  | error => simp [configured, Except.mapError, bind, Except.bind] at loads
  | ok found =>
    cases opened : Project.load disk found.layout source.root with
    | error => simp [configured, opened, Except.mapError, bind, Except.bind] at loads
    | ok all =>
      simp only [configured, opened, Except.mapError, bind, Except.bind, pure, Except.pure,
        Except.ok.injEq, Prod.mk.injEq] at loads
      obtain ⟨rfl, rfl⟩ := loads
      exact ⟨rfl, opened⟩

end ProjectSource

/-! ## Calls -/

theorem Stop.disk_result (disk : Disk) (stop : Stop) : (stop.result disk).disk = disk := by
  cases stop <;> rfl

namespace Command

/-- The arguments are accepted, and the configuration and the project of their command can be
loaded. -/
structure Opens (disk : Disk) (arguments : List String) (command : Command) (config : Config)
    (project : Project) : Prop where
  accepted : ofArguments arguments = .ok command
  loads : command.source.load disk = .ok (config, project)

/-- The gate has no violation or is skipped. -/
def Passes (options : MigrateOptions) (config : Config) (project : Project) : Prop :=
  options.skipPreflight = true ∨ (Preflight.inspect config project).violations = []

/-- Units of a project are written, and every other file is as it was. -/
structure WritesUnits (disk : Disk) (project : Project) (writes : List FileWrite) (after : Disk) :
    Prop where
  rewritten : disk.Rewritten writes after
  ofProject : ∀ write ∈ writes, write.path ∈ project.paths
  elsewhere : ∀ location, (∀ path ∈ project.paths, disk.locate path ≠ .ok location) →
    after.entry? location = disk.entry? location

/-- How a call of the program ends, and what it has written by then. -/
inductive Ends (faults : RunFaults) (disk : Disk) (arguments : List String)
    (result : CommandResult) : Prop where
  /-- The arguments are faulty or ask for help. -/
  | stopped {stop : Stop} (stops : ofArguments arguments = .error stop)
      (untouched : result.disk = disk)
  /-- The configuration or the project cannot be loaded. -/
  | unloaded {command : Command} {error : CommandError}
      (accepted : ofArguments arguments = .ok command)
      (fails : command.source.load disk = .error error) (code : result.exitCode = 2)
      (untouched : result.disk = disk)
  | checked {source : ProjectSource} {config : Config} {project : Project}
      (opens : Opens disk arguments (.check source) config project)
      (code : result.exitCode =
        if (Preflight.inspect config project).violations.isEmpty then 0 else 1)
      (untouched : result.disk = disk)
  | gated {source : ProjectSource} {options : MigrateOptions} {config : Config} {project : Project}
      (opens : Opens disk arguments (.migrate source options) config project)
      (stops : ¬ Passes options config project) (code : result.exitCode = 1)
      (untouched : result.disk = disk)
  | dry {source : ProjectSource} {options : MigrateOptions} {config : Config} {project : Project}
      (opens : Opens disk arguments (.migrate source options) config project)
      (passes : Passes options config project) (isDry : options.dryRun = true)
      (code : result.exitCode = 0) (untouched : result.disk = disk)
  /-- The file system refuses a unit when the run saves behind one of the phases. -/
  | refused {source : ProjectSource} {options : MigrateOptions} {config : Config}
      {project : Project} {writes : List FileWrite} {phase : Phase} {path : Path} {reason : String}
      (opens : Opens disk arguments (.migrate source options) config project)
      (passes : Passes options config project) (wet : options.dryRun = false)
      (member : path ∈ project.paths) (fault : faults phase path = some reason)
      (told : result.standardError =
        "error: " ++ (CommandError.writing (.fileFailure path reason)).message ++ "\n")
      (code : result.exitCode = 2) (wrote : WritesUnits disk project writes result.disk)
  /-- The report of the run is printed, and it lists the units that are written and no other. -/
  | migrated {source : ProjectSource} {options : MigrateOptions} {config : Config}
      {project : Project} {writes : List FileWrite} {pattern : Pattern} {report : Report}
      {finish : Workspace} (opens : Opens disk arguments (.migrate source options) config project)
      (passes : Passes options config project) (wet : options.dryRun = false)
      (ran : migrateStoresUnder faults config pattern false
        (Store.select config.naming project options.stores) ⟨project, disk⟩ = .ok report finish)
      (printed : result.standardOutput = report.print options.json)
      (code : result.exitCode = 0) (wrote : WritesUnits disk project writes result.disk)
      (written_iff : ∀ path, path ∈ report.written ↔ ∃ write ∈ writes, write.path = path)

variable {faults : RunFaults} {disk : Disk} {arguments : List String} {source : ProjectSource}
  {options : MigrateOptions} {config : Config} {project : Project} {writes : List FileWrite}

theorem writesUnits {workspace : Workspace}
    (soFar : WritesSoFar disk project.paths writes workspace) :
    WritesUnits disk project writes workspace.disk :=
  ⟨soFar.rewritten, soFar.ofLoaded, fun _ apart =>
    soFar.rewritten.entry?_eq fun write member => apart write.path (soFar.ofLoaded write member)⟩

/-- A written path is the only spelling that the project has of it, so it is listed itself. -/
theorem mem_eraseDups_iff (ofProject : ∀ write ∈ writes, write.path ∈ project.paths) (path : Path) :
    path ∈ (writes.map FileWrite.path).eraseDups ↔ ∃ write ∈ writes, write.path = path := by
  rw [← List.mem_map]
  refine ⟨mem_of_mem_eraseDups, fun member => ?_⟩
  have loaded : ∀ other ∈ writes.map FileWrite.path, other ∈ project.paths :=
    List.forall_mem_map.2 ofProject
  obtain ⟨other, listed, same⟩ := exists_mem_eraseDups member
  rwa [← eq_of_mem_paths (loaded other (mem_of_mem_eraseDups listed)) (loaded path member)
    (Path.order_eq_of_beq same)]

theorem ends_runMigration {pattern : Pattern}
    (opens : Opens disk arguments (.migrate source options) config project)
    (passes : Passes options config project) (inStep : Workspace.InStep ⟨project, disk⟩) :
    Ends faults disk arguments (runMigration faults config pattern options ⟨project, disk⟩) := by
  unfold runMigration
  dsimp only
  cases isDry : options.dryRun with
  | true =>
    obtain ⟨report, finish, ran, untouched⟩ := exists_dryRunUnder faults config pattern
      (Store.select config.naming project options.stores) ⟨project, disk⟩
    rw [EStateM.run, ran]
    exact .dry opens passes isDry rfl untouched
  | false =>
    -- nothing is written before the phases start; the invariant then holds at every checkpoint
    have soFar : WritesSoFar disk project.paths [] ⟨project, disk⟩ :=
      ⟨inStep, rfl, .nothing, fun _ member => nomatch member⟩
    have ends := runWrites_migrateStoresUnder soFar faults config pattern
      (Store.select config.naming project options.stores)
    cases ran : migrateStoresUnder faults config pattern false
      (Store.select config.naming project options.stores) ⟨project, disk⟩ with
    | ok report finish =>
      rw [ran] at ends
      rw [EStateM.run, ran]
      cases ends with
      | reported soFar written_eq =>
        refine .migrated opens passes isDry ran rfl rfl (writesUnits soFar) fun path => ?_
        rw [written_eq]
        exact mem_eraseDups_iff soFar.ofLoaded path
    | error error left =>
      rw [ran] at ends
      rw [EStateM.run, ran]
      cases ends with
      | refused soFar member fault =>
        exact .refused opens passes isDry member fault rfl rfl (writesUnits soFar)

theorem ends_runMigrate (proper : disk.HasProperNames)
    (opens : Opens disk arguments (.migrate source options) config project) :
    Ends faults disk arguments (runMigrate faults config project options disk) := by
  obtain ⟨configured, opened⟩ := ProjectSource.load_eq_ok opens.loads
  obtain ⟨pattern, compiled⟩ := ProjectSource.exists_aliasPattern configured
  unfold runMigrate
  dsimp only
  split
  · next stops =>
    refine .gated opens ?_ rfl rfl
    simpa [Passes, Inspection.passed] using stops
  · next passes =>
    -- the pattern was compiled when the configuration was loaded, so it cannot fail here
    rw [compiled]
    refine ends_runMigration opens ?_ (inStep_of_load proper opened)
    simpa [Passes, Inspection.passed, or_iff_not_imp_left] using passes

/-- Every call ends in one of these ways, whatever writes the file system refuses. -/
theorem ends_runArgumentsUnder (proper : disk.HasProperNames) (faults : RunFaults)
    (arguments : List String) :
    Ends faults disk arguments (runArgumentsUnder faults disk arguments) := by
  unfold runArgumentsUnder
  cases accepted : ofArguments arguments with
  | error stop => exact .stopped accepted (stop.disk_result disk)
  | ok command =>
    dsimp only
    unfold runUnder
    cases loads : command.source.load disk with
    | error error => exact .unloaded accepted loads rfl rfl
    | ok loaded =>
      obtain ⟨config, project⟩ := loaded
      cases command with
      | check source => exact .checked ⟨accepted, loads⟩ rfl rfl
      | migrate source options => exact ends_runMigrate proper ⟨accepted, loads⟩

/-- The unit of actions is migrated and written. -/
theorem ends_runArgumentsUnder_oneUnit :
    oneUnitDisk.HasProperNames ∧
      Ends .none oneUnitDisk ["migrate", "."]
        (runArgumentsUnder .none oneUnitDisk ["migrate", "."]) ∧
      (runArgumentsUnder .none oneUnitDisk ["migrate", "."]).exitCode = 0 ∧
      (runArgumentsUnder .none oneUnitDisk ["migrate", "."]).disk.read ⟨"a.actions.ts"⟩ ≠
        oneUnitDisk.read ⟨"a.actions.ts"⟩ := by
  have proper : oneUnitDisk.HasProperNames := by
    simp [Disk.HasProperNames, oneUnitDisk, Component.IsSegment]
  have writes :
      (runArgumentsUnder .none oneUnitDisk ["migrate", "."]).exitCode = 0 ∧
        (runArgumentsUnder .none oneUnitDisk ["migrate", "."]).disk.read ⟨"a.actions.ts"⟩ ≠
          oneUnitDisk.read ⟨"a.actions.ts"⟩ := by
    decide +kernel
  exact ⟨proper, ends_runArgumentsUnder proper .none ["migrate", "."], writes⟩

end Command

end CreatorMigration
