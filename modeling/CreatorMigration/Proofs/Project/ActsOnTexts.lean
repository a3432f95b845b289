import CreatorMigration.Proofs.Project.Saving

/-! # Changes of texts

An activity that reads and changes nothing but the texts of units leaves what they were when they
were loaded and last written, so a project stays in step with its files. What is saved in between
does not show in the texts.
-/

namespace CreatorMigration

open Project Update

/-- The activity reads and changes nothing but the texts of units. -/
structure ActsOnTexts {α : Type} (change : StateM Project α) : Prop where
  remarked : ∀ marking project,
    change.run (project.remarked marking) =
      ((change.run project).1, (change.run project).2.remarked marking)
  paths_eq : ∀ project, (change.run project).2.paths = project.paths

section

variable {α β ε : Type}

theorem actsOnTexts_run {update : Update ε α} (only : TextsOnly update) :
    ActsOnTexts (fun project => update.run project : StateM Project (Except ε α)) :=
  ⟨run_remarked only, only.paths_eq⟩

theorem ActsOnTexts.map {change : StateM Project α} (acts : ActsOnTexts change) (answer : α → β) :
    ActsOnTexts (change >>= fun result => pure (answer result)) := by
  refine ⟨fun marking project => ?_, acts.paths_eq⟩
  rw [StateT.run_bind, acts.remarked]
  rfl

end

/-- A unit behind such a change was there in front of it, and was loaded and saved as it was. -/
theorem ActsOnTexts.exists_before {α : Type} {change : StateM Project α}
    (acts : ActsOnTexts change) {before after : Project} {answer : α}
    (ran : change.run before = (answer, after)) {unit : SourceUnit} (member : unit ∈ after.units) :
    ∃ old ∈ before.units, old.path = unit.path ∧ old.marks = unit.marks := by
  have samePaths := acts.paths_eq before
  have sameMarks := acts.remarked before.marks before
  rw [← (Mirrors.refl before).eq_remarked, ran] at sameMarks
  rw [ran] at samePaths
  -- the project behind the change has the marks of the project in front of it
  have marked : after = after.remarked before.marks := (Prod.mk.inj sameMarks).2
  have listed : unit.path ∈ before.paths := samePaths ▸ List.mem_map_of_mem member
  obtain ⟨old, oldMember, samePath⟩ := List.mem_map.1 listed
  rw [marked] at member
  obtain ⟨twin, _, rfl⟩ := List.mem_map.1 member
  refine ⟨old, oldMember, samePath, ?_⟩
  rw [← marks_of_mem oldMember, samePath]
  rfl

/-- A project stays in step with its files. -/
theorem ActsOnTexts.inStep {α : Type} {change : StateM Project α} (acts : ActsOnTexts change)
    {workspace : Workspace} (inStep : workspace.InStep) {after : Project} {answer : α}
    (ran : change.run workspace.project = (answer, after)) :
    Workspace.InStep ⟨after, workspace.disk⟩ := by
  have samePaths := acts.paths_eq workspace.project
  rw [ran] at samePaths
  constructor
  · intro unit member
    obtain ⟨old, oldMember, samePath, sameMarks⟩ := acts.exists_before ran member
    rw [← samePath, show unit.saved = old.saved from congrArg Marks.saved sameMarks.symm]
    exact inStep.file old oldMember
  · dsimp only
    rw [samePaths]
    exact inStep.apart

/-! ## Projects that differ in what is saved -/

/-- The projects differ at most in what was saved. -/
def SameButSaved (left right : Project) : Prop :=
  ∃ marking, right = left.remarked marking ∧
    ∀ unit ∈ left.units, (marking unit.path.components).loaded = unit.loaded

theorem sameButSaved_refl (project : Project) : SameButSaved project project :=
  ⟨project.marks, (Mirrors.refl project).eq_remarked, fun _ member => by
    rw [marks_of_mem member]
    rfl⟩

namespace SameButSaved

variable {left right : Project} (same : SameButSaved left right)

include same

theorem sameTexts : SameTexts left right := by
  obtain ⟨marking, rfl, _⟩ := same
  exact (mirrors_remarked left marking).texts

theorem changedPaths_eq : right.changedPaths = left.changedPaths := by
  obtain ⟨marking, rfl, loaded⟩ := same
  -- whether a unit counts as changed is a matter of its text and of the loaded one
  have changed : left.units.filter (SourceUnit.isChanged ∘ (·.remarked marking)) =
      left.units.filter SourceUnit.isChanged := by
    refine List.filter_congr fun unit member => ?_
    simp only [Function.comp_apply, SourceUnit.isChanged, SourceUnit.remarked, loaded unit member]
  rw [changedPaths, units_remarked, List.filter_map, changed, List.map_map]
  rfl

theorem savedAt (units : List SourceUnit) : SameButSaved left (right.savedAt units) := by
  obtain ⟨marking, rfl, loaded⟩ := same
  have mirrors : Mirrors left ((left.remarked marking).savedAt units) := by
    refine ⟨rfl, rfl, List.forall₂_map_right_iff.2 (List.forall₂_map_right_iff.2
      (List.forall₂_same.2 fun unit _ => ?_))⟩
    split <;> exact ⟨rfl, rfl⟩
  refine ⟨_, mirrors.eq_remarked, fun unit member => ?_⟩
  have kept : _ ∈ ((left.remarked marking).savedAt units).units :=
    List.mem_map_of_mem (List.mem_map_of_mem member)
  have marked := congrArg Marks.loaded (marks_of_mem kept)
  split at marked <;> exact marked.trans (loaded unit member)

theorem saved : SameButSaved left right.saved := by
  rw [← savedAt_units]
  exact same.savedAt _

theorem run {α : Type} {change : StateM Project α} (acts : ActsOnTexts change) :
    (change.run right).1 = (change.run left).1 ∧
      SameButSaved (change.run left).2 (change.run right).2 := by
  obtain ⟨marking, rfl, loaded⟩ := same
  rw [acts.remarked]
  refine ⟨rfl, marking, rfl, fun unit member => ?_⟩
  obtain ⟨old, oldMember, samePath, sameMarks⟩ := acts.exists_before rfl member
  rw [← samePath, loaded old oldMember]
  exact congrArg Marks.loaded sameMarks

end SameButSaved

end CreatorMigration
