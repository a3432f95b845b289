import CreatorMigration.Proofs.Edit
import CreatorMigration.Proofs.Project.Changes
import CreatorMigration.Proofs.Unit.Spans

/-! # Updates that fail

An update fails when one of its steps does. Adding imports to a unit never fails, and an alignment
of imports fails exactly when the removals of unused imports overlap.
-/

namespace CreatorMigration

/-! ## Failing -/

namespace Update

variable {ε α β : Type} {project : Project}

/-- The update ends with an error, whatever it has changed before. -/
def Fails (update : Update ε α) (project : Project) : Prop :=
  ∃ error left, update project = .error error left

theorem not_fails_iff {update : Update ε α} :
    ¬ update.Fails project ↔ ∃ answer result, update project = .ok answer result := by
  unfold Fails
  cases update project <;> simp

theorem not_fails_pure (value : α) : ¬ (pure value : Update ε α).Fails project :=
  not_fails_iff.2 ⟨value, project, rfl⟩

/-- One activity after another fails when the first does, or the second where the first ends. -/
theorem fails_bind_iff {first : Update ε α} {second : α → Update ε β} :
    Fails (first >>= second) project ↔
      first.Fails project ∨
        ∃ answer between, first project = .ok answer between ∧ (second answer).Fails between := by
  unfold Fails
  change (∃ error left, EStateM.bind first second project = .error error left) ↔ _
  unfold EStateM.bind
  cases first project <;> simp

/-- What an update makes of its answer in the end cannot fail. -/
theorem fails_bind_pure_iff {first : Update ε α} {change : α → β} :
    Fails (first >>= fun answer => pure (change answer)) project ↔ first.Fails project := by
  rw [fails_bind_iff]
  exact or_iff_left fun ⟨_, _, _, failed⟩ => not_fails_pure _ failed

/-- One activity after another ends with the error of the first, or with that of the second. -/
theorem bind_eq_error_iff {first : Update ε α} {second : α → Update ε β} {error : ε}
    {left : Project} :
    (first >>= second) project = .error error left ↔
      first project = .error error left ∨
        ∃ answer between, first project = .ok answer between ∧
          second answer between = .error error left := by
  change EStateM.bind first second project = .error error left ↔ _
  unfold EStateM.bind
  cases first project <;> simp

theorem withError_eq_error_iff {δ : Type} {change : ε → δ} {update : Update ε α} {error : δ}
    {left : Project} :
    update.withError change project = .error error left ↔
      ∃ cause, update project = .error cause left ∧ change cause = error := by
  unfold withError
  cases update project <;> simp [and_comm]

theorem fails_get_bind_iff {next : Project → Update ε α} :
    Fails (get >>= next) project ↔ (next project).Fails project := by
  unfold Fails
  rfl

theorem fails_withError_iff {δ : Type} {change : ε → δ} {update : Update ε α} :
    (update.withError change).Fails project ↔ update.Fails project := by
  unfold Fails withError
  cases update project <;> simp

/-- Whether a run fails with an error and a state that pass a test. -/
def failsWith {σ : Type} (passes : ε → σ → Bool) : EStateM.Result ε σ α → Bool
  | .ok _ _ => false
  | .error error state => passes error state

theorem exists_of_failsWith {σ : Type} {passes : ε → σ → Bool} {outcome : EStateM.Result ε σ α}
    (fails : failsWith passes outcome = true) :
    ∃ error state, outcome = .error error state ∧ passes error state = true := by
  cases outcome with
  | ok => cases fails
  | error error state => exact ⟨error, state, rfl, fails⟩

/-! ## One step for each item -/

/-- Takes a step for each item of a list, in their order. -/
def runEach (step : α → Update ε β) : List α → Update ε Unit
  | [] => return ()
  | item :: rest => do
      let _ ← step item
      runEach step rest

theorem runEach_append (step : α → Update ε β) (first second : List α) :
    runEach step (first ++ second) = runEach step first >>= fun _ => runEach step second := by
  induction first with
  | nil => rfl
  | cons item rest inductionHypothesis =>
    rw [List.cons_append, runEach, runEach, inductionHypothesis, bind_assoc]

/-- The removals that some item comes to in its turn, behind the steps for those in front of it. -/
def ComesTo (step : α → Update ε β) (removing : α → Project → List Edit → Prop) (items : List α)
    (project : Project) (removals : List Edit) : Prop :=
  ∃ done item rest left, items = done ++ item :: rest ∧
    runEach step done project = .ok () left ∧ removing item left removals

theorem fails_runEach_iff {step : α → Update ε β} {items : List α} :
    (runEach step items).Fails project ↔
      ∃ done item rest left, items = done ++ item :: rest ∧
        runEach step done project = .ok () left ∧ (step item).Fails left := by
  constructor
  · intro failed
    induction items generalizing project with
    | nil => exact absurd failed (not_fails_pure ())
    | cons first rest inductionHypothesis =>
      rcases fails_bind_iff.1 failed with failed | ⟨answer, between, ran, failed⟩
      · exact ⟨[], first, rest, project, rfl, rfl, failed⟩
      -- the first item joins those that are done
      · obtain ⟨done, item, others, left, rfl, ranDone, failedThen⟩ := inductionHypothesis failed
        refine ⟨first :: done, item, others, left, rfl, ?_, failedThen⟩
        exact bind_eq_ok_iff.2 ⟨answer, between, ran, ranDone⟩
  · rintro ⟨done, item, rest, left, rfl, ran, failed⟩
    rw [runEach_append, fails_bind_iff]
    exact .inr ⟨(), left, ran, fails_bind_iff.2 (.inl failed)⟩

/-- Where each step fails when its removals overlap, all of them together do. -/
theorem fails_runEach_iff_comesTo {step : α → Update ε β}
    {removing : α → Project → List Edit → Prop} {items : List α}
    (turn : ∀ {done item rest left}, items = done ++ item :: rest →
      runEach step done project = .ok () left →
      ((step item).Fails left ↔ ∃ removals, removing item left removals ∧
        ¬ Edit.Disjoint removals)) :
    (runEach step items).Fails project ↔
      ∃ removals, ComesTo step removing items project removals ∧ ¬ Edit.Disjoint removals := by
  rw [fails_runEach_iff]
  constructor
  · rintro ⟨done, item, rest, left, split, ran, failed⟩
    obtain ⟨removals, removes, overlap⟩ := (turn split ran).1 failed
    exact ⟨removals, ⟨done, item, rest, left, split, ran, removes⟩, overlap⟩
  · rintro ⟨removals, ⟨done, item, rest, left, split, ran, removes⟩, overlap⟩
    exact ⟨done, item, rest, left, split, ran, (turn split ran).2 ⟨removals, removes, overlap⟩⟩

/-! ## Units -/

section

variable {path : Path} {unit : SourceUnit} (found : project.unit? path = some unit)

include found

theorem require_eq_ok : require path project = .ok unit project :=
  require_eq_ok_iff.2 ⟨found, rfl⟩

theorem fails_require_bind_iff {next : SourceUnit → Update ProjectError α} :
    Fails (require path >>= next) project ↔ (next unit).Fails project := by
  unfold Fails
  change (∃ error left, EStateM.bind (require path) next project = .error error left) ↔ _
  rw [EStateM.bind, require_eq_ok found]

/-- Edits in the bounds of a unit can be applied unless two of them overlap. -/
theorem fails_apply_iff {edits : List Edit} (isIn : ∀ edit ∈ edits, edit.span.IsIn unit.text) :
    (apply path edits).Fails project ↔ ¬ Edit.Disjoint edits := by
  have required : project.require path = .ok unit := by
    rw [Project.require, found]
  simp only [Fails, apply, step, Project.apply, required, bind, Except.bind]
  cases edits with
  | nil => simp [SourceUnit.apply, Edit.Disjoint]
  | cons first rest =>
    rw [← Edit.exists_applyAll_iff isIn, SourceUnit.apply, if_neg (by simp)]
    cases Edit.applyAll unit.text (first :: rest) <;> simp [Except.map]

end

end Update

namespace Project

open Update

variable {project : Project} {path : Path}

/-! ## Imports -/

theorem isIn_joinEdit {unit : SourceUnit} {name : String} {statement : Import} {list : Span}
    (fits : statement.Fits unit.text) (braces : statement.namedSpan = some list) :
    (SourceUnit.joinEdit name statement list).span.IsIn unit.text := by
  unfold SourceUnit.joinEdit
  split
  · next last found =>
    exact Span.isIn_point (fits.named last (List.mem_of_getLast? found)).stop_isBoundary
  · exact fits.namedSpan list braces

theorem isIn_newImportEdit (unit : SourceUnit) (name module : String) :
    (unit.newImportEdit name module).span.IsIn unit.text := by
  unfold SourceUnit.newImportEdit
  dsimp only
  split
  · exact Span.isIn_point (Text.isBoundary_zero _)
  · exact Span.isIn_point unit.isBoundary_importsEnd

theorem isIn_importEdit? {unit : SourceUnit} {name module : String}
    {isSameModule : Import → Bool} {edit : Edit}
    (some : unit.importEdit? name module isSameModule = some edit) : edit.span.IsIn unit.text := by
  unfold SourceUnit.importEdit? at some
  split at some
  · cases some
  · cases some
    cases joined : unit.imports.findSome? _ with
    | none => exact isIn_newImportEdit unit name module
    | some edit =>
      obtain ⟨statement, member, joins⟩ := List.exists_of_findSome?_eq_some joined
      split at joins
      · obtain ⟨list, braces, rfl⟩ := Option.map_eq_some_iff.1 joins
        exact isIn_joinEdit (SourceUnit.fits_of_mem_imports member) braces
      · cases joins

theorem isIn_keepEdit? {unit : SourceUnit} {statement : Import} {kept : List ImportSpecifier}
    {edit : Edit} (fits : statement.Fits unit.text)
    (keeps : unit.keepEdit? statement kept = some edit) : edit.span.IsIn unit.text := by
  unfold SourceUnit.keepEdit? at keeps
  split at keeps
  · obtain ⟨list, braces, rfl⟩ := Option.map_eq_some_iff.1 keeps
    exact fits.namedSpan list braces
  · rw [← Option.some.inj keeps]
    exact fits.statement
  · split at keeps
    · rw [← Option.some.inj keeps, Edit.span_delete]
      exact SourceUnit.isIn_removalSpanOf fits.statement
    · cases keeps

theorem isIn_of_mem_unusedImportEdits {unit : SourceUnit} {mentioned : List String} {edit : Edit}
    (member : edit ∈ unit.unusedImportEdits mentioned) : edit.span.IsIn unit.text := by
  obtain ⟨statement, statementMember, drops⟩ := List.mem_filterMap.1 member
  split at drops
  · exact isIn_keepEdit? (SourceUnit.fits_of_mem_imports statementMember) drops
  · cases drops

section

variable {unit : SourceUnit} (found : project.unit? path = some unit)

include found

theorem not_fails_importName (name module : String) (isSameModule : Import → Bool) :
    ¬ (importName path name module isSameModule).Fails project := by
  unfold importName
  rw [fails_require_bind_iff found]
  cases importing : unit.importEdit? name module isSameModule with
  | none => exact not_fails_pure false
  | some edit =>
    have isIn : ∀ other ∈ [edit], other.span.IsIn unit.text :=
      List.forall_mem_singleton.2 (isIn_importEdit? importing)
    rw [fails_bind_pure_iff, fails_apply_iff found isIn, not_not]
    exact List.pairwise_singleton _ _

theorem not_fails_bringIn (table : ImportTable) (name : String) :
    ¬ (bringIn table path name).Fails project := by
  unfold bringIn
  split
  · exact not_fails_importName found name _ _
  · rw [fails_get_bind_iff]
    split
    · unfold addImportOf
      rw [fails_get_bind_iff]
      exact not_fails_importName found name _ _
    · exact not_fails_pure false

end

/-- Where the paths stay the same, a unit that is found is found again. -/
theorem exists_unit?_of_paths_eq {before after : Project} {unit : SourceUnit}
    (same : after.paths = before.paths) (found : before.unit? path = some unit) :
    ∃ changed, after.unit? path = some changed := by
  obtain ⟨member, own⟩ := before.unit?_eq_some_iff.1 found
  have listed : unit.path ∈ after.paths := same ▸ List.mem_map_of_mem member
  obtain ⟨changed, changedMember, samePath⟩ := List.mem_map.1 listed
  exact ⟨changed, after.unit?_eq_some_iff.2 ⟨changedMember, samePath ▸ own⟩⟩

theorem not_fails_bringInAll {unit : SourceUnit} (found : project.unit? path = some unit)
    (table : ImportTable) (names : List String) :
    ¬ (bringInAll table path names).Fails project := by
  induction names generalizing project unit with
  | nil => exact not_fails_pure []
  | cons name rest inductionHypothesis =>
    rw [bringInAll, fails_bind_iff]
    rintro (failed | ⟨added, between, brought, failed⟩)
    · exact not_fails_bringIn found table name failed
    · obtain ⟨changed, foundThen⟩ :=
        exists_unit?_of_paths_eq ((changesOnly_bringIn table name).sameBut brought).paths_eq found
      exact inductionHypothesis foundThen (fails_bind_pure_iff.1 failed)

/-! ## Alignment -/

/-- The removals of unused imports that an alignment comes to once it has brought in the names that
the unit misses. -/
def DropsImports (table : ImportTable) (path : Path) (project : Project) (removals : List Edit) :
    Prop :=
  ∃ before added left unit, project.unit? path = some before ∧
    bringInAll table path before.namesMissing project = .ok added left ∧
    left.unit? path = some unit ∧ removals = unit.unusedImportEdits before.namesUsed

/-- An alignment fails when the removals that it comes to overlap, and for no other reason. -/
theorem fails_alignImports_iff {before : SourceUnit} (found : project.unit? path = some before)
    (table : ImportTable) :
    (alignImports table path).Fails project ↔
      ∃ removals, DropsImports table path project removals ∧ ¬ Edit.Disjoint removals := by
  unfold alignImports
  rw [fails_require_bind_iff found, fails_bind_iff,
    or_iff_right (not_fails_bringInAll found table before.namesMissing)]
  constructor
  · rintro ⟨added, left, brought, failed⟩
    obtain ⟨unit, foundThen⟩ :=
      exists_unit?_of_paths_eq ((changesOnly_bringInAll table _).sameBut brought).paths_eq found
    rw [fails_require_bind_iff foundThen, fails_bind_pure_iff,
      fails_apply_iff foundThen fun edit => isIn_of_mem_unusedImportEdits] at failed
    exact ⟨_, ⟨before, added, left, unit, found, brought, foundThen, rfl⟩, failed⟩
  · rintro ⟨_, ⟨other, added, left, unit, foundOther, brought, foundThen, rfl⟩, overlap⟩
    cases found.symm.trans foundOther
    refine ⟨added, left, brought, ?_⟩
    rwa [fails_require_bind_iff foundThen, fails_bind_pure_iff,
      fails_apply_iff foundThen fun edit => isIn_of_mem_unusedImportEdits]

end Project

end CreatorMigration
