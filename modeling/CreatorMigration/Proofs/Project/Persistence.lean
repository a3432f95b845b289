import CreatorMigration.Proofs.Project.ActsOnTexts
import CreatorMigration.Proofs.Project.Loading

/-! # Edits and saves in any order

A project that was loaded from files is edited and saved in any order, and any of the steps may
fail. `Workspace.Persists` says what holds after each of them: what is not waiting to be written is
in its file, a save that fails loses nothing, and a save that succeeds writes what waits.
-/

namespace CreatorMigration

open Project Update

/-- What is done to a project in files. -/
inductive FileStep where
  | apply (path : Path) (edits : List Edit)
  | align (table : ImportTable) (path : Path)
  /-- A save while the file system refuses some writes. -/
  | save (faults : Workspace.WriteFaults)

def FileStep.isSave : FileStep → Bool
  | save _ => true
  | _ => false

namespace Workspace

/-! ## Steps -/

/-- What a task leaves, whether it succeeds or fails on its way. -/
def leftBy {α : Type} (task : Task α) (workspace : Workspace) : Workspace :=
  match task workspace with
  | .ok _ after => after
  | .error _ after => after

/-- What an update of the project leaves, whether it succeeds or fails on its way. -/
def updatedBy {ε α : Type} (update : Update ε α) (workspace : Workspace) : Workspace :=
  { workspace with project := (update.run workspace.project).2 }

def afterStep (workspace : Workspace) : FileStep → Workspace
  | .apply path edits => updatedBy (Update.apply path edits) workspace
  | .align table path => updatedBy (alignImports table path) workspace
  | .save faults => leftBy (saveUnder faults) workspace

def afterSteps (workspace : Workspace) (steps : List FileStep) : Workspace :=
  steps.foldl afterStep workspace

/-! ## What holds after every step -/

/-- What a save that fails leaves of a unit: one that did not wait stays as it was, and one that did
is written, or it waits as before and its file is as it was. -/
inductive FailedSaveLeaves (before after : Disk) : SourceUnit → SourceUnit → Prop where
  | clean {unit : SourceUnit} (clean : unit.isUnsaved = false) :
      FailedSaveLeaves before after unit unit
  | written {unit : SourceUnit} (waited : unit.isUnsaved = true)
      (file : after.read unit.path = .ok unit.text) :
      FailedSaveLeaves before after unit unit.markSaved
  | waiting {unit : SourceUnit} (waits : unit.isUnsaved = true)
      (file : after.read unit.path = before.read unit.path) :
      FailedSaveLeaves before after unit unit

/-- How a save ends. It succeeds when no unit that waits is refused, and writes those that wait. -/
inductive SaveEnds (faults : WriteFaults) (before : Workspace) :
    EStateM.Result ProjectError Workspace (List Path) → Prop where
  | saved {after : Workspace}
      (taken : ∀ unit ∈ before.project.units, unit.isUnsaved = true → faults unit.path = none)
      (ordered : ((before.project.units.filter SourceUnit.isUnsaved).map
        SourceUnit.path).Pairwise fun left right => left.order right = .lt)
      (units : after.project.units = before.project.units.map SourceUnit.markSaved)
      (clean : ∀ unit ∈ after.project.units, unit.isUnsaved = false)
      (file : ∀ unit ∈ after.project.units, after.disk.read unit.path = .ok unit.text) :
      SaveEnds faults before
        (.ok ((before.project.units.filter SourceUnit.isUnsaved).map SourceUnit.path) after)
  | failed {after : Workspace} {unit : SourceUnit} {reason : String}
      (member : unit ∈ before.project.units) (waits : unit.isUnsaved = true)
      (fault : faults unit.path = some reason)
      (units : List.Forall₂ (FailedSaveLeaves before.disk after.disk) before.project.units
        after.project.units)
      (stays : unit ∈ after.project.units) :
      SaveEnds faults before (.error (.fileFailure unit.path reason) after)

/-- What holds of a project and its files after any steps since it was loaded from `disk`. -/
structure Persists (disk : Disk) (workspace : Workspace) : Prop where
  clean : ∀ unit ∈ workspace.project.units, unit.isUnsaved = false →
    workspace.disk.read unit.path = .ok unit.text
  changed_iff : ∀ path, path ∈ workspace.project.changedPaths ↔
    ∃ unit ∈ workspace.project.units, unit.path = path ∧
      ∃ text, disk.read path = .ok text ∧ unit.text ≠ text
  save : ∀ faults, SaveEnds faults workspace (saveUnder faults workspace)

/-- The project is in step with its files, and its units were loaded from `disk`. -/
structure StemsFrom (disk : Disk) (workspace : Workspace) : Prop where
  inStep : workspace.InStep
  loaded : ∀ unit ∈ workspace.project.units, disk.read unit.path = .ok unit.loaded

variable {disk : Disk} {workspace : Workspace}

/-! ## Saves -/

theorem InStep.read (inStep : workspace.InStep) {unit : SourceUnit}
    (member : unit ∈ workspace.project.units) :
    workspace.disk.read unit.path = .ok unit.saved := by
  obtain ⟨_, file⟩ := inStep.file unit member
  exact file.read

theorem text_of_saved {unit : SourceUnit} (clean : unit.isUnsaved = false) :
    unit.text = unit.saved := by
  simpa [SourceUnit.isUnsaved] using clean

/-- Some of the units are written, and the others stay as they are. -/
theorem failedSaveLeaves (inStep : workspace.InStep) {front : List SourceUnit} {after : Disk}
    (inStepThen : InStep ⟨workspace.project.savedAt front, after⟩) :
    List.Forall₂ (FailedSaveLeaves workspace.disk after) workspace.project.units
      (workspace.project.savedAt front).units := by
  refine List.forall₂_map_right_iff.2 (List.forall₂_same.2 fun old member => ?_)
  have file := inStepThen.read (List.mem_map_of_mem member)
  dsimp only at file ⊢
  split at file
  · next written =>
    rw [if_pos written]
    cases waited : old.isUnsaved with
    | true => exact .written waited file
    | false =>
      rw [SourceUnit.markSaved_of_saved waited]
      exact .clean waited
  · next kept =>
    rw [if_neg kept]
    cases waits : old.isUnsaved with
    | true => exact .waiting waits (file.trans (inStep.read member).symm)
    | false => exact .clean waits

/-- The unit that is refused stays as it is, because it is none of those in front of it. -/
theorem mem_savedAt_front {front back : List SourceUnit} {unit : SourceUnit}
    (split : workspace.project.units = front ++ unit :: back) :
    unit ∈ (workspace.project.savedAt front).units := by
  have ordered := workspace.project.ordered
  rw [split, List.pairwise_append] at ordered
  refine List.mem_map.2 ⟨unit, by simp [split], if_neg fun shared => ?_⟩
  obtain ⟨other, otherMember, same⟩ := List.any_eq_true.1 shared
  have below := ordered.2.2 other otherMember unit List.mem_cons_self
  rw [Path.beq_comm] at same
  cases (Path.order_eq_of_beq same).symm.trans below

theorem InStep.saveEnds (inStep : workspace.InStep) (faults : WriteFaults) :
    SaveEnds faults workspace (saveUnder faults workspace) := by
  have ends := savingEnds inStep faults
  generalize saveUnder faults workspace = ending at ends
  cases ends with
  | all taken inStepThen =>
    rw [savedAt_units] at inStepThen ⊢
    refine .saved taken ?_ rfl ?_ ?_
    · exact List.pairwise_map.2 (workspace.project.ordered.sublist List.filter_sublist)
    · intro unit member
      obtain ⟨old, _, rfl⟩ := List.mem_map.1 member
      simp [SourceUnit.isUnsaved, SourceUnit.markSaved]
    · intro unit member
      rw [inStepThen.read member]
      obtain ⟨old, _, rfl⟩ := List.mem_map.1 member
      rfl
  | refused split waits fault inStepThen =>
    exact .failed (by simp [split]) waits fault (failedSaveLeaves inStep inStepThen)
      (mem_savedAt_front split)

/-! ## Any number of steps -/

theorem StemsFrom.persists (stems : StemsFrom disk workspace) : Persists disk workspace := by
  refine ⟨fun unit member clean => ?_, fun path => ?_, stems.inStep.saveEnds⟩
  · rw [text_of_saved clean]
    exact stems.inStep.read member
  · rw [changedPaths, List.mem_map]
    constructor
    · rintro ⟨unit, member, rfl⟩
      obtain ⟨inProject, changed⟩ := List.mem_filter.1 member
      exact ⟨unit, inProject, rfl, unit.loaded, stems.loaded unit inProject,
        by simpa [SourceUnit.isChanged] using changed⟩
    · rintro ⟨unit, member, rfl, text, read, different⟩
      cases (stems.loaded unit member).symm.trans read
      exact ⟨unit, List.mem_filter.2 ⟨member, by simpa [SourceUnit.isChanged] using different⟩, rfl⟩

theorem StemsFrom.updatedBy {ε α : Type} {update : Update ε α} (only : TextsOnly update)
    (stems : StemsFrom disk workspace) : StemsFrom disk (updatedBy update workspace) := by
  have acts := actsOnTexts_run only
  refine ⟨acts.inStep stems.inStep rfl, fun unit member => ?_⟩
  obtain ⟨old, oldMember, samePath, sameMarks⟩ := acts.exists_before rfl member
  rw [← samePath, show unit.loaded = old.loaded from congrArg Marks.loaded sameMarks.symm]
  exact stems.loaded old oldMember

/-- Whatever a save has written, it leaves a project that is in step with its files. -/
theorem InStep.exists_leftBy_saveUnder (inStep : workspace.InStep) (faults : WriteFaults) :
    ∃ units after, leftBy (saveUnder faults) workspace = ⟨workspace.project.savedAt units, after⟩ ∧
      InStep ⟨workspace.project.savedAt units, after⟩ := by
  have ends := savingEnds inStep faults
  unfold leftBy
  generalize saveUnder faults workspace = ending at ends
  cases ends with
  | all _ inStepThen => exact ⟨_, _, rfl, inStepThen⟩
  | refused _ _ _ inStepThen => exact ⟨_, _, rfl, inStepThen⟩

theorem StemsFrom.afterStep (stems : StemsFrom disk workspace) (step : FileStep) :
    StemsFrom disk (workspace.afterStep step) := by
  cases step with
  | apply path edits => exact stems.updatedBy (textsOnly_apply path edits)
  | align table path => exact stems.updatedBy (textsOnly_alignImports table path)
  | save faults =>
    obtain ⟨units, after, left, inStep⟩ := stems.inStep.exists_leftBy_saveUnder faults
    rw [Workspace.afterStep, left]
    refine ⟨inStep, fun unit member => ?_⟩
    obtain ⟨old, oldMember, rfl⟩ := List.mem_map.1 member
    split <;> exact stems.loaded old oldMember

theorem StemsFrom.afterSteps (stems : StemsFrom disk workspace) (steps : List FileStep) :
    StemsFrom disk (workspace.afterSteps steps) := by
  induction steps generalizing workspace with
  | nil => exact stems
  | cons step rest inductionHypothesis => exact inductionHypothesis (stems.afterStep step)

/-- Steps with the saves among them lead to the same texts as without them. -/
theorem sameButSaved_afterSteps {left right : Workspace} (same : SameButSaved left.project right.project)
    (stems : StemsFrom disk right) (steps : List FileStep) :
    SameButSaved (left.afterSteps (steps.filter fun step => !step.isSave)).project
      (right.afterSteps steps).project := by
  induction steps generalizing left right with
  | nil => exact same
  | cons step rest inductionHypothesis =>
    have stemsThen := stems.afterStep step
    cases step with
    | apply path edits =>
      exact inductionHypothesis (same.run (actsOnTexts_run (textsOnly_apply path edits))).2 stemsThen
    | align table path =>
      exact inductionHypothesis (same.run (actsOnTexts_run (textsOnly_alignImports table path))).2
        stemsThen
    | save faults =>
      refine inductionHypothesis ?_ stemsThen
      obtain ⟨units, after, left, _⟩ := stems.inStep.exists_leftBy_saveUnder faults
      rw [Workspace.afterStep, left]
      exact same.savedAt units

/-- Whatever edits, alignments and saves are made since a project was loaded, and whichever of them
fail, nothing is lost, and the saves among them do not matter for the texts. -/
theorem persists_afterSteps {layout : ProjectLayout} {root : Path} {project : Project}
    (proper : disk.HasProperNames) (loaded : Project.load disk layout root = .ok project)
    (steps : List FileStep) :
    Persists disk (afterSteps ⟨project, disk⟩ steps) ∧
      SameTexts (afterSteps ⟨project, disk⟩ (steps.filter fun step => !step.isSave)).project
        (afterSteps ⟨project, disk⟩ steps).project ∧
      (afterSteps ⟨project, disk⟩ (steps.filter fun step => !step.isSave)).project.changedPaths =
        (afterSteps ⟨project, disk⟩ steps).project.changedPaths := by
  have stems : StemsFrom disk ⟨project, disk⟩ := by
    refine ⟨inStep_of_load proper loaded, fun unit member => ?_⟩
    obtain ⟨_, _, read, same⟩ := exists_of_load proper loaded member
    rw [← same]
    exact read
  have same := sameButSaved_afterSteps
    (show SameButSaved (mk project disk).project (mk project disk).project from sameButSaved_refl _)
    stems steps
  exact ⟨(stems.afterSteps steps).persists, same.sameTexts, same.changedPaths_eq.symm⟩

/-- Two units in files. -/
def twoUnitDisk : Disk :=
  { workingDirectory := []
    entries := [(["a.ts"], .text "1"), (["b.ts"], .text "2")] }

def twoUnitProject : Project :=
  ofUnits ⟨"."⟩ {} [SourceUnit.ofText ⟨"a.ts"⟩ "1", SourceUnit.ofText ⟨"b.ts"⟩ "2"]

/-- Both units are edited, the save writes the first and fails at the second, and the first gets its
old text back. -/
def refusedSteps : List FileStep :=
  [.apply ⟨"a.ts"⟩ [⟨⟨0, 1⟩, "3"⟩], .apply ⟨"b.ts"⟩ [⟨⟨0, 1⟩, "4"⟩],
    .save fun path => if path == ⟨"b.ts"⟩ then some "No space left on device" else none,
    .apply ⟨"a.ts"⟩ [⟨⟨0, 1⟩, "1"⟩]]

/-- Both units wait to be written then, and only the second one has another text than at first. -/
theorem persists_afterSteps_refused :
    twoUnitDisk.HasProperNames ∧ Project.load twoUnitDisk {} ⟨"."⟩ = .ok twoUnitProject ∧
      Persists twoUnitDisk (afterSteps ⟨twoUnitProject, twoUnitDisk⟩ refusedSteps) ∧
      ((afterSteps ⟨twoUnitProject, twoUnitDisk⟩ refusedSteps).project.units.map
        SourceUnit.isUnsaved) = [true, true] ∧
      ((afterSteps ⟨twoUnitProject, twoUnitDisk⟩ refusedSteps).project.changedPaths.map
        Path.text) = ["b.ts"] := by
  have proper : twoUnitDisk.HasProperNames := by
    simp [Disk.HasProperNames, twoUnitDisk, Component.IsSegment]
  have loaded : Project.load twoUnitDisk {} ⟨"."⟩ = .ok twoUnitProject := rfl
  have ended : ((afterSteps ⟨twoUnitProject, twoUnitDisk⟩ refusedSteps).project.units.map
        SourceUnit.isUnsaved) = [true, true] ∧
      ((afterSteps ⟨twoUnitProject, twoUnitDisk⟩ refusedSteps).project.changedPaths.map
        Path.text) = ["b.ts"] := by
    decide +kernel
  exact ⟨proper, loaded, (persists_afterSteps proper loaded refusedSteps).1, ended⟩

end Workspace

end CreatorMigration
