import CreatorMigration.Proofs.Project.Changes
import CreatorMigration.Proofs.Project.Marks

/-! # Updates of texts

An update that is made of questions about texts and of edits runs in the same way whatever the marks
of the units are, and leaves them as they are.
-/

namespace CreatorMigration

open Project

namespace Update

variable {ε α β : Type}

/-- The result of an update with other marks on the project that it leaves. -/
def remarkResult (marking : Marking) : EStateM.Result ε Project α → EStateM.Result ε Project α
  | .ok answer project => .ok answer (project.remarked marking)
  | .error error project => .error error (project.remarked marking)

/-- The update reads and changes nothing but the texts of units. -/
structure TextsOnly (update : Update ε α) : Prop where
  remarked : ∀ marking project,
    update (project.remarked marking) = remarkResult marking (update project)
  paths_eq : ∀ project, (update.run project).2.paths = project.paths

/-! ## Two runs -/

theorem run_remarked {update : Update ε α} (only : TextsOnly update) (marking : Marking)
    (project : Project) :
    update.run (project.remarked marking) =
      ((update.run project).1, (update.run project).2.remarked marking) := by
  have same := only.remarked marking project
  cases ran : update project with
  | ok answer result =>
    rw [ran] at same
    rw [run_of_ok same, run_of_ok ran]
  | error error result =>
    rw [ran] at same
    rw [run_of_error same, run_of_error ran]

/-! ## Combinators -/

theorem textsOnly_pure (value : α) : TextsOnly (pure value : Update ε α) :=
  ⟨fun _ _ => rfl, fun _ => rfl⟩

theorem textsOnly_throw (error : ε) : TextsOnly (throw error : Update ε α) :=
  ⟨fun _ _ => rfl, fun _ => rfl⟩

theorem textsOnly_apply (path : Path) (edits : List Edit) : TextsOnly (apply path edits) := by
  refine ⟨fun marking project => ?_, fun project => (changesOnly_apply edits project).paths_eq⟩
  simp only [apply, step, apply_remarked]
  cases project.apply path edits <;> rfl

theorem TextsOnly.bind {update : Update ε α} {next : α → Update ε β} (first : TextsOnly update)
    (second : ∀ answer, TextsOnly (next answer)) : TextsOnly (update >>= next) := by
  refine ⟨fun marking project => ?_, fun project => ?_⟩
  · change EStateM.bind update next (project.remarked marking) =
      remarkResult marking (EStateM.bind update next project)
    unfold EStateM.bind
    rw [first.remarked]
    cases update project with
    | ok answer between => exact (second answer).remarked marking between
    | error => rfl
  · have before := first.paths_eq project
    cases ran : update project with
    | ok answer between =>
      rw [run_of_ok ran] at before
      rw [run_bind_of_ok ran, (second answer).paths_eq, before]
    | error error between =>
      rw [run_of_error ran] at before
      rw [run_bind_of_error ran, before]

theorem TextsOnly.withError {δ : Type} {update : Update ε α} (first : TextsOnly update)
    (change : ε → δ) : TextsOnly (update.withError change) := by
  refine ⟨fun marking project => ?_, fun project => ?_⟩
  · unfold Update.withError
    rw [first.remarked]
    cases update project <;> rfl
  · have before := first.paths_eq project
    cases ran : update project with
    | ok answer between =>
      rw [run_of_ok ran] at before
      rw [run_of_ok (withError_eq_ok_iff.2 ran), before]
    | error error between =>
      rw [run_of_error ran] at before
      rw [run_of_error (show update.withError change project = .error (change error) between by
        simp [Update.withError, ran]), before]

/-- What follows a question to the project does not depend on the marks of its units. -/
theorem textsOnly_get_bind {next : Project → Update ε α}
    (blind : ∀ marking project, next (project.remarked marking) = next project)
    (only : ∀ project, TextsOnly (next project)) : TextsOnly (get >>= next) := by
  refine ⟨fun marking project => ?_, fun project => (only project).paths_eq project⟩
  change next (project.remarked marking) (project.remarked marking) =
    remarkResult marking (next project project)
  rw [blind, (only project).remarked]

/-- What follows a question to a unit does not depend on the marks of the unit. -/
theorem textsOnly_require_bind {path : Path} {next : SourceUnit → Update ProjectError α}
    (blind : ∀ marking unit, next (unit.remarked marking) = next unit)
    (only : ∀ unit, TextsOnly (next unit)) : TextsOnly (require path >>= next) := by
  -- the question either fails and leaves the project, or hands its answer on in the same project
  have required (project : Project) : (require path >>= next) project =
      match project.require path with
      | .ok unit => next unit project
      | .error error => .error error project := by
    change EStateM.bind (require path) next project = _
    simp only [EStateM.bind, require, ask]
    cases project.require path <;> rfl
  refine ⟨fun marking project => ?_, fun project => ?_⟩
  · rw [required, required, require_remarked]
    cases project.require path with
    | error => rfl
    | ok unit =>
      change next (unit.remarked marking) (project.remarked marking) = _
      rw [blind, (only unit).remarked]
  · have same := required project
    cases found : project.require path with
    | error error =>
      rw [found] at same
      rw [run_of_error same]
    | ok unit =>
      rw [found] at same
      have after := (only unit).paths_eq project
      unfold run EStateM.run at after ⊢
      rwa [same]

end Update

namespace Project

open Update

/-! ## Imports -/

theorem textsOnly_importName (path : Path) (name module : String) (isSameModule : Import → Bool) :
    TextsOnly (importName path name module isSameModule) := by
  refine textsOnly_require_bind (fun _ _ => rfl) fun unit => ?_
  cases unit.importEdit? name module isSameModule with
  | none => exact textsOnly_pure false
  | some edit => exact (textsOnly_apply path [edit]).bind fun _ => textsOnly_pure true

theorem textsOnly_bringIn (table : ImportTable) (path : Path) (name : String) :
    TextsOnly (bringIn table path name) := by
  unfold bringIn
  cases table.find? name with
  | some module => exact textsOnly_importName path name module _
  | none =>
    refine textsOnly_get_bind (fun _ _ => by simp only [exporter?_remarked]) fun project => ?_
    cases project.exporter? path name with
    | none => exact textsOnly_pure false
    | some target =>
      exact textsOnly_get_bind (fun _ _ => by simp only [resolve_remarked]) fun _ =>
        textsOnly_importName path name _ _

theorem textsOnly_bringInAll (table : ImportTable) (path : Path) (names : List String) :
    TextsOnly (bringInAll table path names) := by
  induction names with
  | nil => exact textsOnly_pure []
  | cons name rest inductionHypothesis =>
    exact (textsOnly_bringIn table path name).bind fun _ =>
      inductionHypothesis.bind fun _ => textsOnly_pure _

theorem textsOnly_alignImports (table : ImportTable) (path : Path) :
    TextsOnly (alignImports table path) :=
  textsOnly_require_bind (fun _ _ => rfl) fun _ => (textsOnly_bringInAll table path _).bind fun _ =>
    textsOnly_require_bind (fun _ _ => rfl) fun _ => (textsOnly_apply path _).bind fun _ =>
      textsOnly_pure _

end Project

end CreatorMigration
