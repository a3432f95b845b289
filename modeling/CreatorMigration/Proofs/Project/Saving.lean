import CreatorMigration.Proofs.Disk
import CreatorMigration.Proofs.Project.TextsOnly

/-! # Saved projects

A project that is in step with its files can be saved. Then all its units count as written, and the
file of each of them has its text.
-/

namespace CreatorMigration

open Project Update

/-- Writing what is written already changes nothing. -/
theorem SourceUnit.markSaved_of_saved {unit : SourceUnit} (written : unit.isUnsaved = false) :
    unit.markSaved = unit := by
  obtain ⟨path, text, tree, loaded, saved, tree_eq⟩ := unit
  obtain rfl : text = saved := by simpa [isUnsaved] using written
  rfl

namespace Project

/-- The project with some of its units counted as written. -/
def savedAt (project : Project) (units : List SourceUnit) : Project :=
  project.mapUnits
    (fun other => if units.any fun unit => other.path == unit.path then other.markSaved else other)
    (fun other => by split <;> rfl)

/-- The project with all units counted as written. -/
def saved (project : Project) : Project := project.mapUnits SourceUnit.markSaved fun _ => rfl

variable {project : Project} {unit : SourceUnit}

theorem mapUnits_congr {change other : SourceUnit → SourceUnit}
    {unmoved : ∀ unit, (change unit).path = unit.path}
    {otherUnmoved : ∀ unit, (other unit).path = unit.path}
    (same : ∀ unit ∈ project.units, change unit = other unit) :
    project.mapUnits change unmoved = project.mapUnits other otherUnmoved := by
  unfold mapUnits
  congr 1
  exact List.map_congr_left same

theorem replaceUnit_markSaved (member : unit ∈ project.units) :
    project.replaceUnit unit.markSaved = project.savedAt [unit] := by
  refine mapUnits_congr fun other otherMember => ?_
  cases same : other.path == unit.path with
  | false => simp [SourceUnit.markSaved, same]
  | true =>
    cases project.eq_of_path_beq otherMember member same
    rw [if_pos (show (unit.path == unit.markSaved.path) = true from same), if_pos (by simpa using same)]
    rfl

theorem savedAt_cons (units : List SourceUnit) :
    (project.savedAt [unit]).savedAt units = project.savedAt (unit :: units) := by
  unfold savedAt mapUnits
  simp only [List.map_map]
  congr 1
  refine List.map_congr_left fun other _ => ?_
  by_cases same : (other.path == unit.path) = true
  · simp only [Function.comp_apply, List.any_cons, same, Bool.true_or, if_true]
    split <;> rfl
  · simp [same]

/-- A unit that is written already may be left out. -/
theorem savedAt_of_saved {units : List SourceUnit} (member : unit ∈ project.units)
    (written : unit.isUnsaved = false) : project.savedAt (unit :: units) = project.savedAt units := by
  refine mapUnits_congr fun other otherMember => ?_
  cases same : other.path == unit.path with
  | false => simp [same]
  | true =>
    cases project.eq_of_path_beq otherMember member same
    simp [SourceUnit.markSaved_of_saved written]

@[simp] theorem paths_savedAt (units : List SourceUnit) :
    (project.savedAt units).paths = project.paths := by
  rw [paths, savedAt, mapUnits, List.map_map]
  refine List.map_congr_left fun other _ => ?_
  simp only [Function.comp_apply]
  split <;> rfl

theorem savedAt_nil : project.savedAt [] = project := by
  simp [savedAt, mapUnits]

theorem savedAt_units : project.savedAt project.units = project.saved := by
  refine mapUnits_congr fun other member => ?_
  rw [if_pos (List.any_eq_true.2 ⟨other, member, Path.beq_iff.2 rfl⟩)]

/-- Units in order behind a unit are other ones, so they wait as they are. -/
theorem mem_savedAt_of_behind {other : SourceUnit} (member : other ∈ project.units)
    (behind : unit.order other = .lt) : other ∈ (project.savedAt [unit]).units := by
  have apart : (other.path == unit.path) = false := by
    rw [Path.beq_comm, Bool.eq_false_iff]
    intro same
    have equal := Path.order_eq_of_beq same
    cases equal.symm.trans behind
  exact List.mem_map.2 ⟨other, member, by simp [apart]⟩

end Project

namespace Workspace

/-- The file of each unit has the text that was last written for it, and no two units share a
file. -/
structure InStep (workspace : Workspace) : Prop where
  file : ∀ unit ∈ workspace.project.units,
    ∃ location, workspace.disk.IsFile unit.path location unit.saved
  apart : ∀ left ∈ workspace.project.paths, ∀ right ∈ workspace.project.paths, ∀ location,
    workspace.disk.locate left = .ok location → workspace.disk.locate right = .ok location →
      (left == right) = true

variable {workspace : Workspace} {faults : WriteFaults} {unit : SourceUnit}

theorem exists_writeUnit (inStep : workspace.InStep) (member : unit ∈ workspace.project.units)
    (taken : faults unit.path = none) :
    ∃ disk, workspace.disk.write unit.path unit.text = .ok disk ∧
      writeUnit faults unit workspace = .ok () ⟨workspace.project.savedAt [unit], disk⟩ ∧
      InStep ⟨workspace.project.savedAt [unit], disk⟩ := by
  obtain ⟨location, file⟩ := inStep.file unit member
  refine ⟨workspace.disk.setEntry location (.text unit.text), file.write unit.text, ?_, ?_, ?_⟩
  · refine bind_eq_ok_iff.2 ⟨workspace, workspace, get_eq_ok_iff.2 ⟨rfl, rfl⟩, ?_⟩
    simp only [taken, file.write, replaceUnit_markSaved member]
    rfl
  · intro new newMember
    obtain ⟨old, oldMember, rfl⟩ := List.mem_map.1 newMember
    cases same : old.path == unit.path with
    | true =>
      cases workspace.project.eq_of_path_beq oldMember member same
      exact ⟨location, by simpa [same, SourceUnit.markSaved] using file.written unit.text⟩
    | false =>
      obtain ⟨other, otherFile⟩ := inStep.file old oldMember
      -- the write hits one file, and no other unit has it
      have different : other ≠ location := by
        rintro rfl
        have shared := inStep.apart _ (List.mem_map_of_mem oldMember) _ (List.mem_map_of_mem member)
          other otherFile.located file.located
        exact absurd (same.symm.trans shared) Bool.false_ne_true
      exact ⟨other, by simpa [same] using file.kept otherFile different unit.text⟩
  · rw [paths_savedAt]
    intro left leftMember right rightMember place
    dsimp only
    rw [Disk.locate_setEntry file.held, Disk.locate_setEntry file.held]
    exact inStep.apart left leftMember right rightMember place

theorem writeUnit_of_fault {reason : String} (refused : faults unit.path = some reason) :
    writeUnit faults unit workspace = .error (.fileFailure unit.path reason) workspace := by
  unfold writeUnit
  rw [refused]
  rfl

/-- How the writing of some units ends: all that differ from their files are written, or the first of
them that the file system refuses ends it, and those in front of it are written. -/
inductive WritingEnds (faults : WriteFaults) (units : List SourceUnit) (before : Workspace) :
    EStateM.Result ProjectError Workspace (List Path) → Prop where
  | all {disk : Disk}
      (taken : ∀ unit ∈ units, unit.isUnsaved = true → faults unit.path = none)
      (inStep : InStep ⟨before.project.savedAt units, disk⟩) :
      WritingEnds faults units before
        (.ok ((units.filter SourceUnit.isUnsaved).map SourceUnit.path)
          ⟨before.project.savedAt units, disk⟩)
  | refused {disk : Disk} {front back : List SourceUnit} {unit : SourceUnit} {reason : String}
      (split : units = front ++ unit :: back) (unsaved : unit.isUnsaved = true)
      (fault : faults unit.path = some reason)
      (inStep : InStep ⟨before.project.savedAt front, disk⟩) :
      WritingEnds faults units before
        (.error (.fileFailure unit.path reason) ⟨before.project.savedAt front, disk⟩)

/-- The units to write are units of the project and stand in order, so that no write gets in the way
of another. -/
theorem writingEnds {units : List SourceUnit} (inStep : workspace.InStep)
    (pending : ∀ unit ∈ units, unit ∈ workspace.project.units)
    (ordered : units.Pairwise fun left right => left.order right = .lt) :
    WritingEnds faults units workspace (writeUnits faults units workspace) := by
  induction units generalizing workspace with
  | nil =>
    have written : InStep ⟨workspace.project.savedAt [], workspace.disk⟩ := by rwa [savedAt_nil]
    have ends : WritingEnds faults [] workspace _ := .all (fun _ member => nomatch member) written
    rwa [savedAt_nil] at ends
  | cons unit rest inductionHypothesis =>
    obtain ⟨member, pendingRest⟩ := List.forall_mem_cons.1 pending
    obtain ⟨behind, orderedRest⟩ := List.pairwise_cons.1 ordered
    cases unsaved : unit.isUnsaved with
    | false =>
      have ends := inductionHypothesis inStep pendingRest orderedRest
      rw [writeUnits, unsaved]
      change WritingEnds faults (unit :: rest) workspace (writeUnits faults rest workspace)
      generalize writeUnits faults rest workspace = ending at ends
      -- the unit is written already, so the writing of the rest is that of all
      cases ends with
      | all taken inStepThen =>
        rw [← savedAt_of_saved member unsaved] at inStepThen ⊢
        rw [← List.filter_cons_of_neg (l := rest) (by simp [unsaved] : ¬ unit.isUnsaved = true)]
        refine .all (List.forall_mem_cons.2 ⟨fun waits => ?_, taken⟩) inStepThen
        cases unsaved.symm.trans waits
      | refused split waits fault inStepThen =>
        rw [← savedAt_of_saved member unsaved] at inStepThen ⊢
        exact .refused (by rw [split]; rfl) waits fault inStepThen
    | true =>
      rw [writeUnits, unsaved]
      change WritingEnds faults (unit :: rest) workspace (EStateM.bind _ _ _)
      cases fault : faults unit.path with
      | some reason =>
        have written : InStep ⟨workspace.project.savedAt [], workspace.disk⟩ := by
          rwa [savedAt_nil]
        have ends : WritingEnds faults (unit :: rest) workspace _ :=
          .refused (show unit :: rest = [] ++ unit :: rest from rfl) unsaved fault written
        rw [EStateM.bind, writeUnit_of_fault fault]
        rwa [savedAt_nil] at ends
      | none =>
        obtain ⟨disk, _, wrote, inStepThen⟩ := exists_writeUnit inStep member fault
        have pendingThen : ∀ other ∈ rest, other ∈ (workspace.project.savedAt [unit]).units :=
          fun other otherMember =>
            mem_savedAt_of_behind (pendingRest other otherMember) (behind other otherMember)
        have ends := inductionHypothesis inStepThen pendingThen orderedRest
        rw [EStateM.bind, wrote]
        change WritingEnds faults (unit :: rest) workspace (EStateM.bind _ _ _)
        rw [EStateM.bind]
        generalize writeUnits faults rest _ = ending at ends
        cases ends with
        | all taken inStepEnd =>
          rw [savedAt_cons] at inStepEnd ⊢
          have ends : WritingEnds faults (unit :: rest) workspace _ :=
            .all (List.forall_mem_cons.2 ⟨fun _ => fault, taken⟩) inStepEnd
          rwa [List.filter_cons_of_pos unsaved] at ends
        | refused split waits faultThen inStepEnd =>
          rw [savedAt_cons] at inStepEnd ⊢
          exact .refused (by rw [split]; rfl) waits faultThen inStepEnd

/-- How a save of a project in step with its files ends. -/
theorem savingEnds (inStep : workspace.InStep) (faults : WriteFaults) :
    WritingEnds faults workspace.project.units workspace (saveUnder faults workspace) :=
  writingEnds inStep (fun _ member => member) workspace.project.ordered

/-- A project in step with its files is saved as a whole. -/
theorem exists_save (inStep : workspace.InStep) :
    ∃ disk, save workspace =
        .ok ((workspace.project.units.filter SourceUnit.isUnsaved).map SourceUnit.path)
          ⟨workspace.project.saved, disk⟩ ∧
      InStep ⟨workspace.project.saved, disk⟩ := by
  have ends := savingEnds inStep fun _ => none
  unfold save
  generalize saveUnder _ workspace = ending at ends
  cases ends with
  | all _ inStepThen =>
    rw [savedAt_units] at inStepThen ⊢
    exact ⟨_, rfl, inStepThen⟩
  | refused _ _ fault => cases fault

end Workspace

end CreatorMigration
