import CreatorMigration.Project.Imports
import CreatorMigration.Proofs.Project.Frame

/-! # Updates of one unit

An update that is made of updates of one unit leaves all other units alone, also when it fails on
its way.
-/

namespace CreatorMigration

open Project

namespace Update

variable {ε α β : Type} {path : Path}

/-- Whether it succeeds or not, the update changes at most the unit at a path. -/
def ChangesOnly (path : Path) (update : Update ε α) : Prop :=
  ∀ project, SameBut path project (update.run project).2

theorem changesOnly_pure (value : α) : ChangesOnly path (pure value : Update ε α) :=
  fun project => .refl project

theorem changesOnly_get : ChangesOnly path (get : Update ε Project) :=
  fun project => .refl project

theorem changesOnly_throw (error : ε) : ChangesOnly path (throw error : Update ε α) :=
  fun project => .refl project

theorem changesOnly_require (other : Path) : ChangesOnly path (require other) := by
  intro project
  cases found : project.require other with
  | ok unit =>
    rw [run_of_ok (show require other project = .ok unit project by simp [require, ask, found])]
    exact .refl project
  | error error =>
    rw [run_of_error (show require other project = .error error project by
      simp [require, ask, found])]
    exact .refl project

theorem changesOnly_apply (edits : List Edit) : ChangesOnly path (apply path edits) := by
  intro project
  cases applied : project.apply path edits with
  | ok changed =>
    rw [run_of_ok (show apply path edits project = .ok () changed from apply_eq_ok_iff.2 applied)]
    exact sameBut_apply applied
  | error error =>
    rw [run_of_error (show apply path edits project = .error error project by
      simp [apply, step, applied])]
    exact .refl project

theorem run_eq_ok_iff {update : Update ε α} {project result : Project} {answer : α} :
    update.run project = (.ok answer, result) ↔ update project = .ok answer result := by
  constructor
  · intro ran
    cases applied : update project with
    | ok other between =>
      rw [run_of_ok applied] at ran
      cases ran
      rfl
    | error error between =>
      rw [run_of_error applied] at ran
      cases ran
  · exact run_of_ok

section

variable {update : Update ε α} {next : α → Update ε β} {project between : Project}

/-- Behind an update that succeeds the next one runs in what it left. -/
theorem run_bind_of_ok {answer : α} (ran : update project = .ok answer between) :
    (update >>= next).run project = (next answer).run between := by
  unfold run EStateM.run
  rw [bind_of_ok ran]

/-- What a failed update has changed on its way is still there. -/
theorem run_bind_of_error {error : ε} (ran : update project = .error error between) :
    (update >>= next).run project = (.error error, between) :=
  run_of_error (bind_of_error ran)

/-- What both steps keep of a project is kept, whichever of them fails. -/
theorem relates_bind {relation : Project → Project → Prop}
    (transitive : ∀ {before between after}, relation before between → relation between after →
      relation before after)
    (first : relation project (update.run project).2)
    (second : ∀ answer between, update project = .ok answer between →
      relation between ((next answer).run between).2) :
    relation project ((update >>= next).run project).2 := by
  cases ran : update project with
  | ok answer between =>
    rw [run_of_ok ran] at first
    rw [run_bind_of_ok ran]
    exact transitive first (second answer between ran)
  | error error between =>
    rw [run_of_error ran] at first
    rwa [run_bind_of_error ran]

end

theorem ChangesOnly.bind {update : Update ε α} {next : α → Update ε β}
    (first : ChangesOnly path update) (second : ∀ answer, ChangesOnly path (next answer)) :
    ChangesOnly path (update >>= next) := fun project =>
  relates_bind SameBut.trans (first project) fun answer between _ => second answer between

theorem ChangesOnly.withError {δ : Type} {update : Update ε α} (first : ChangesOnly path update)
    (change : ε → δ) : ChangesOnly path (update.withError change) := by
  intro project
  have before := first project
  cases ran : update project with
  | ok answer result =>
    rw [run_of_ok ran] at before
    rw [run_of_ok (show update.withError change project = .ok answer result by
      simp [Update.withError, ran])]
    exact before
  | error error result =>
    rw [run_of_error ran] at before
    rw [run_of_error (show update.withError change project = .error (change error) result by
      simp [Update.withError, ran])]
    exact before

theorem ChangesOnly.sameBut {update : Update ε α} (first : ChangesOnly path update)
    {project result : Project} {answer : α} (ran : update project = .ok answer result) :
    SameBut path project result := by
  have before := first project
  rwa [run_of_ok ran] at before

end Update

namespace Project

open Update

variable {path : Path}

/-! ## Imports -/

theorem changesOnly_importName (name module : String) (isSameModule : Import → Bool) :
    ChangesOnly path (importName path name module isSameModule) := by
  refine (changesOnly_require path).bind fun unit => ?_
  cases unit.importEdit? name module isSameModule with
  | none => exact changesOnly_pure false
  | some edit => exact (changesOnly_apply [edit]).bind fun _ => changesOnly_pure true

theorem changesOnly_bringIn (table : ImportTable) (name : String) :
    ChangesOnly path (bringIn table path name) := by
  unfold bringIn
  cases table.find? name with
  | some module => exact changesOnly_importName name module _
  | none =>
    refine changesOnly_get.bind fun project => ?_
    cases project.exporter? path name with
    | none => exact changesOnly_pure false
    | some target => exact changesOnly_get.bind fun _ => changesOnly_importName name _ _

theorem changesOnly_bringInAll (table : ImportTable) (names : List String) :
    ChangesOnly path (bringInAll table path names) := by
  induction names with
  | nil => exact changesOnly_pure []
  | cons name rest inductionHypothesis =>
    exact (changesOnly_bringIn table name).bind fun _ =>
      inductionHypothesis.bind fun _ => changesOnly_pure _

theorem changesOnly_alignImports (table : ImportTable) (path : Path) :
    ChangesOnly path (alignImports table path) :=
  (changesOnly_require path).bind fun _ => (changesOnly_bringInAll table _).bind fun _ =>
    (changesOnly_require path).bind fun _ => (changesOnly_apply _).bind fun _ =>
      changesOnly_pure _

end Project

end CreatorMigration
