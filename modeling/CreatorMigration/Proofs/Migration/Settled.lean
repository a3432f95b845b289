import CreatorMigration.Proofs.Migration.Phases
import CreatorMigration.Proofs.Project.Failures

/-! # Settled units

A unit is settled when a migration passes it over or leaves it to be migrated by hand. Whether a unit
is settled shows in its text, so it stays settled until its text is changed.
-/

namespace CreatorMigration

open Project Update

/-! ## Texts that are settled -/

namespace SourceUnit

/-- The plan of the unit is refused. -/
def ActionsSettled (config : Config) (pattern : Pattern) (unit : SourceUnit) : Prop :=
  ∃ reason, UnitPlan.ofUnit config pattern unit = .error reason

/-- The unit calls the factory of reducers or has no reducing function with a switch. -/
def ReducerSettled (config : Config) (unit : SourceUnit) : Prop :=
  unit.calls config.creators.createReducer = true ∨
    ∀ declaration ∈ reducingFunction? config.naming unit, switchOf? declaration.node = none

/-- The unit has no annotated property, or one that holds no call. -/
def PipelinesSettled (config : Config) (unit : SourceUnit) : Prop :=
  AnnotatedProperty.all config unit = [] ∨
    ∃ property ∈ AnnotatedProperty.all config unit, property.holdsCall = false

/-- Units with one text have a property in common. -/
def ShowsInText (property : SourceUnit → Prop) : Prop :=
  ∀ {old new : SourceUnit}, new.text = old.text → property old → property new

variable {config : Config} {pattern : Pattern} {old new : SourceUnit}

theorem showsInText_actionsSettled : ShowsInText (ActionsSettled config pattern) := by
  rintro ⟨_, text, tree, _, _, rfl⟩ ⟨_, _, _, _, _, rfl⟩ rfl settled
  exact settled

theorem showsInText_reducerSettled : ShowsInText (ReducerSettled config) := by
  rintro ⟨_, text, tree, _, _, rfl⟩ ⟨_, _, _, _, _, rfl⟩ rfl settled
  exact settled

theorem showsInText_pipelinesSettled : ShowsInText (PipelinesSettled config) := by
  rintro ⟨_, text, tree, _, _, rfl⟩ ⟨_, _, _, _, _, rfl⟩ rfl settled
  exact settled

end SourceUnit

namespace Project

/-- The unit at a path has a property, if there is a unit. -/
def HoldsAt (property : SourceUnit → Prop) (path : Path) (project : Project) : Prop :=
  ∀ unit ∈ project.unit? path, property unit

/-- Where the text stays the same, a property that shows in it is kept. -/
theorem HoldsAt.of_textAt?_eq {property : SourceUnit → Prop}
    (shows : SourceUnit.ShowsInText property) {path : Path} {before after : Project}
    (same : after.textAt? path = before.textAt? path) (holds : HoldsAt property path before) :
    HoldsAt property path after := by
  intro unit found
  unfold textAt? at same
  rw [Option.mem_def.1 found, Option.map_some, eq_comm, Option.map_eq_some_iff] at same
  obtain ⟨old, oldFound, sameText⟩ := same
  exact shows sameText.symm (holds old oldFound)

end Project

/-! ## Refusals -/

/-- Whether a migration has ended in a skip or asks for a migration by hand. -/
def IsRefusal {σ : Type} : Except MigrationError (Outcome σ) → Prop
  | .ok (.migrated _) => False
  | .ok (.skipped _) => True
  | .error error => error.requiresHand = true

/-- In a project, a migration is refused just if a condition holds, and then it has changed
nothing. -/
structure RefusesIf {σ : Type} (condition : Prop) (migration : Migration (Outcome σ))
    (project : Project) : Prop where
  isRefusal_iff : IsRefusal (migration.run project).1 ↔ condition
  untouched : IsRefusal (migration.run project).1 → (migration.run project).2 = project

section

variable {σ : Type} {condition : Prop} {project : Project}

theorem refusesIf_skipped (holds : condition) (reason : SkipReason) :
    RefusesIf condition (pure (.skipped reason) : Migration (Outcome σ)) project :=
  ⟨iff_of_true trivial holds, fun _ => rfl⟩

theorem refusesIf_throw {error : MigrationError} (holds : condition)
    (hand : error.requiresHand = true) :
    RefusesIf condition (throw error : Migration (Outcome σ)) project :=
  ⟨iff_of_true hand holds, fun _ => rfl⟩

/-- The errors of the project itself ask for no migration by hand. -/
theorem refusesIf_lift {α : Type} {update : Update ProjectError α} (changes : α → σ)
    (without : ¬ condition) :
    RefusesIf condition
      (Migration.lift update >>= fun answer => pure (.migrated (changes answer))) project := by
  have migrates : ¬ IsRefusal ((Migration.lift update >>= fun answer =>
      (pure (.migrated (changes answer)) : Migration (Outcome σ))).run project).1 := by
    cases ran : update project with
    | ok answer between =>
      have lifted : Migration.lift update project = .ok answer between := withError_eq_ok_iff.2 ran
      rw [run_bind_of_ok lifted]
      exact id
    | error error between =>
      have lifted : Migration.lift update project = .error (.project error) between :=
        withError_eq_error_iff.2 ⟨error, ran, rfl⟩
      rw [run_bind_of_error lifted]
      exact Bool.false_ne_true
  exact ⟨iff_of_false migrates without, fun refused => absurd refused migrates⟩

/-- A migration that looks for its unit first is refused as what follows is, or for want of a
unit. -/
theorem refusesIf_unit {property : SourceUnit → Prop} {path : Path}
    {next : SourceUnit → Migration (Outcome σ)}
    (refuses : ∀ unit, RefusesIf (property unit) (next unit) project) :
    RefusesIf (HoldsAt property path project)
      (do
        match (← get : Project).unit? path with
        | none => return .skipped .unitAbsent
        | some unit => next unit)
      project := by
  have got : (get : Migration Project) project = .ok project project := rfl
  cases found : project.unit? path with
  | none =>
    have holds : HoldsAt property path project := fun unit held => by cases found.symm.trans held
    have absent : RefusesIf _ (pure (.skipped .unitAbsent) : Migration (Outcome σ)) project :=
      refusesIf_skipped holds _
    exact ⟨by rw [run_bind_of_ok got, found]; exact absent.isRefusal_iff,
      by rw [run_bind_of_ok got, found]; exact absent.untouched⟩
  | some unit =>
    have holds : HoldsAt property path project ↔ property unit := by
      constructor
      · exact fun each => each unit found
      · intro own other held
        cases found.symm.trans held
        exact own
    exact ⟨by rw [run_bind_of_ok got, found, holds]; exact (refuses unit).isRefusal_iff,
      by rw [run_bind_of_ok got, found]; exact (refuses unit).untouched⟩

end

theorem refusesIf_migrateActions (config : Config) (pattern : Pattern) (path : Path)
    (project : Project) :
    RefusesIf (HoldsAt (SourceUnit.ActionsSettled config pattern) path project)
      (migrateActions config pattern path) project := by
  refine refusesIf_unit fun unit => ?_
  cases planned : UnitPlan.ofUnit config pattern unit with
  | error reason => exact refusesIf_skipped ⟨reason, planned⟩ reason
  | ok plan =>
    refine refusesIf_lift id ?_
    rintro ⟨reason, refused⟩
    cases planned.symm.trans refused

theorem refusesIf_migrateReducer (config : Config) (path : Path) (types : Option ActionTypes)
    (project : Project) :
    RefusesIf (HoldsAt (SourceUnit.ReducerSettled config) path project)
      (migrateReducer config path types) project := by
  refine refusesIf_unit fun unit => ?_
  cases called : unit.calls config.creators.createReducer with
  | true => exact refusesIf_skipped (.inl called) .alreadyMigrated
  | false =>
    cases function : reducingFunction? config.naming unit with
    | none => exact refusesIf_skipped (.inr (by simp [function])) .noReducerFunction
    | some declaration =>
      cases first : switchOf? declaration.node with
      | none =>
        simp only [first]
        exact refusesIf_throw (.inr (by simp [function, first])) rfl
      | some switch =>
        simp only [first]
        refine refusesIf_lift _ ?_
        rintro (calls | without)
        · cases called.symm.trans calls
        · cases first.symm.trans (without declaration function)

/-- Whatever the work is, it starts only if nothing is refused. -/
theorem refusesIf_migrateAnnotated {σ : Type} (config : Config) (path : Path)
    (work : SourceUnit → Update ProjectError σ) (project : Project) :
    RefusesIf (HoldsAt (SourceUnit.PipelinesSettled config) path project)
      (migrateAnnotated config path work) project := by
  refine refusesIf_unit fun unit => ?_
  cases annotated : (AnnotatedProperty.all config unit).isEmpty with
  | true =>
    simp only [annotated]
    exact refusesIf_skipped (.inl (List.isEmpty_iff.1 annotated)) _
  | false =>
    cases without : (AnnotatedProperty.all config unit).find? fun property => !property.holdsCall with
    | some property =>
      simp only [annotated, without]
      have callless := List.find?_some without
      exact refusesIf_throw
        (.inr ⟨property, List.mem_of_find?_eq_some without, by simpa using callless⟩) rfl
    | none =>
      simp only [annotated, without]
      -- what is lifted does not refuse, so the unit must not be settled
      refine refusesIf_lift id ?_
      rintro (none | ⟨property, member, callless⟩)
      · rw [none] at annotated
        cases annotated
      · simpa [callless] using List.find?_eq_none.1 without property member

/-! ## Migrations of settled units -/

/-- A migration leaves a settled unit alone, and it passes over settled units only. -/
structure Settles {σ : Type} (migration : Migration (Outcome σ)) (settled : Project → Prop) :
    Prop where
  left : ∀ {project}, settled project →
    (∃ reason, migration project = .ok (.skipped reason) project) ∨
      ∃ error, migration project = .error error project
  skipped : ∀ {project result reason}, migration project = .ok (.skipped reason) result →
    result = project ∧ settled project

theorem settles_of_refusesIf {σ : Type} {migration : Migration (Outcome σ)}
    {settled : Project → Prop}
    (refuses : ∀ project, RefusesIf (settled project) migration project) :
    Settles migration settled := by
  constructor
  · intro project isSettled
    have refused := (refuses project).isRefusal_iff.2 isSettled
    -- a refusal keeps the project, whether it ends with an answer or with an error
    have kept := (refuses project).untouched refused
    cases ran : migration project with
    | error error left =>
      rw [run_of_error ran] at kept
      cases kept
      exact .inr ⟨error, rfl⟩
    | ok outcome left =>
      rw [run_of_ok ran] at kept refused
      cases kept
      cases outcome with
      | migrated => exact refused.elim
      | skipped reason => exact .inl ⟨reason, rfl⟩
  · intro project result reason ran
    obtain ⟨refused_iff, kept⟩ := refuses project
    rw [run_of_ok ran] at refused_iff kept
    exact ⟨kept trivial, refused_iff.1 trivial⟩

theorem settles_migrateActions (config : Config) (pattern : Pattern) (path : Path) :
    Settles (migrateActions config pattern path)
      (HoldsAt (SourceUnit.ActionsSettled config pattern) path) :=
  settles_of_refusesIf (refusesIf_migrateActions config pattern path)

theorem settles_migrateReducer (config : Config) (path : Path) (types : Option ActionTypes) :
    Settles (migrateReducer config path types)
      (HoldsAt (SourceUnit.ReducerSettled config) path) :=
  settles_of_refusesIf (refusesIf_migrateReducer config path types)

theorem settles_migrateAnnotated {σ : Type} (config : Config) (path : Path)
    (work : SourceUnit → Update ProjectError σ) :
    Settles (migrateAnnotated config path work)
      (HoldsAt (SourceUnit.PipelinesSettled config) path) :=
  settles_of_refusesIf (refusesIf_migrateAnnotated config path work)

/-! ## Steps of a run -/

/-- A step of a run leaves a project alone in which its units are settled, and they are when it passes
over all of them. -/
structure StepSettles {β : Type} (step : StateM Project β) (entries : β → List UnitEntry)
    (settled : Project → Prop) : Prop where
  left : ∀ {project}, settled project → ∃ answer, step.run project = (answer, project) ∧
    ∀ entry ∈ entries answer, entry.outcome.isMigrated = false
  skipped : ∀ {project result answer}, step.run project = (answer, result) →
    (∀ entry ∈ entries answer, entry.outcome.isSkipped = true) → result = project ∧ settled project

section

variable {α β σ : Type}

theorem stepSettles_attempt {migration : Migration (Outcome σ)} {settled : Project → Prop}
    (settles : Settles migration settled) {describe : σ → UnitOutcome}
    (migrates : ∀ changes, (describe changes).isMigrated = true) (path : Path)
    (answer : Except MigrationError (Outcome σ) → β) (entries : β → List UnitEntry)
    (reports : ∀ result, entries (answer result) = [⟨path, UnitOutcome.ofResult describe result⟩]) :
    StepSettles (attempt migration >>= fun result => pure (answer result)) entries settled := by
  constructor
  · intro project isSettled
    rcases settles.left isSettled with ⟨reason, ran⟩ | ⟨error, ran⟩
    · refine ⟨answer (.ok (.skipped reason)), ?_, ?_⟩
      · rw [StateT.run_bind, show (attempt migration).run project = _ from run_of_ok ran]
        rfl
      · rw [reports, List.forall_mem_singleton]
        rfl
    · refine ⟨answer (.error error), ?_, ?_⟩
      · rw [StateT.run_bind, show (attempt migration).run project = _ from run_of_error ran]
        rfl
      · rw [reports, List.forall_mem_singleton]
        rfl
  · intro project result answered ran skips
    cases ended : migration.run project with
    | mk ending left =>
      rw [StateT.run_bind, show (attempt migration).run project = _ from ended] at ran
      obtain ⟨rfl, rfl⟩ := Prod.mk.inj ran
      rw [reports, List.forall_mem_singleton] at skips
      -- of the three ways to end only a skip is reported as one
      rcases ending with error | changes | reason
      · cases skips
      · have migrated := migrates changes
        cases described : describe changes with
        | migrated => simp [UnitOutcome.ofResult, described, UnitOutcome.isSkipped] at skips
        | skipped | failed => simp [described, UnitOutcome.isMigrated] at migrated
      · exact settles.skipped (run_eq_ok_iff.1 ended)

theorem stepSettles_mapM {step : α → StateM Project β} {entries : β → List UnitEntry}
    {settled : α → Project → Prop} {items : List α}
    (each : ∀ item ∈ items, StepSettles (step item) entries (settled item)) :
    StepSettles (items.mapM step) (List.flatMap entries)
      fun project => ∀ item ∈ items, settled item project := by
  induction items with
  | nil =>
    exact ⟨fun _ => ⟨[], rfl, by simp⟩, fun ran _ => ⟨(Prod.mk.inj ran).2.symm, by simp⟩⟩
  | cons item rest inductionHypothesis =>
    have first := each item List.mem_cons_self
    have others := inductionHypothesis fun other member =>
      each other (List.mem_cons_of_mem _ member)
    constructor
    · intro project isSettled
      obtain ⟨firstSettled, othersSettled⟩ := List.forall_mem_cons.1 isSettled
      obtain ⟨answer, ran, none⟩ := first.left firstSettled
      obtain ⟨later, ranLater, noneLater⟩ := others.left othersSettled
      refine ⟨answer :: later, mapM_cons_run_iff.2 ⟨answer, project, later, ran, ranLater, rfl⟩, ?_⟩
      rw [List.flatMap_cons]
      exact List.forall_mem_append.2 ⟨none, noneLater⟩
    · intro project result answers ran skips
      obtain ⟨answer, between, later, turn, last, rfl⟩ := mapM_cons_run_iff.1 ran
      rw [List.flatMap_cons] at skips
      obtain ⟨skip, skipsLater⟩ := List.forall_mem_append.1 skips
      -- the item leaves the project as it is, so the rest runs in the same one
      obtain ⟨rfl, firstSettled⟩ := first.skipped turn skip
      obtain ⟨rfl, othersSettled⟩ := others.skipped last skipsLater
      exact ⟨rfl, List.forall_mem_cons.2 ⟨firstSettled, othersSettled⟩⟩

end

theorem stepSettles_actionStep (config : Config) (pattern : Pattern) (store : Store) :
    StepSettles (actionStep config pattern store) (fun answer => [answer.1])
      (HoldsAt (SourceUnit.ActionsSettled config pattern) store.declaration) :=
  stepSettles_attempt (settles_migrateActions config pattern store.declaration) (fun _ => rfl) _ _ _
    fun _ => rfl

theorem stepSettles_reducerStep (config : Config) (store : Store) (types : Option ActionTypes) :
    StepSettles (reducerStep config store types) (fun entry => [entry])
      (HoldsAt (SourceUnit.ReducerSettled config) store.reducer) :=
  stepSettles_attempt (settles_migrateReducer config store.reducer types) (fun _ => rfl) _ _ _
    fun _ => rfl

theorem stepSettles_pipelineStep (config : Config) (path : Path) :
    StepSettles (pipelineStep config path) (fun entry => [entry])
      (HoldsAt (SourceUnit.PipelinesSettled config) path) :=
  stepSettles_attempt (settles_migrateAnnotated config path _) (fun _ => rfl) _ _ _ fun _ => rfl

/-! ## Phases of a run -/

theorem stepSettles_actionPhase (config : Config) (pattern : Pattern) (stores : List Store) :
    StepSettles (stores.mapM (actionStep config pattern)) (List.flatMap fun answer => [answer.1])
      fun project => ∀ store ∈ stores,
        HoldsAt (SourceUnit.ActionsSettled config pattern) store.declaration project :=
  stepSettles_mapM fun store _ => stepSettles_actionStep config pattern store

theorem stepSettles_reducerPhase (config : Config) (items : List (Store × Option ActionTypes)) :
    StepSettles (items.mapM fun (store, types) => reducerStep config store types)
      (List.flatMap fun entry => [entry])
      fun project => ∀ item ∈ items,
        HoldsAt (SourceUnit.ReducerSettled config) item.1.reducer project :=
  stepSettles_mapM fun (store, types) _ => stepSettles_reducerStep config store types

theorem stepSettles_pipelinePhase (config : Config) (stores : List Store) :
    StepSettles (stores.mapM fun store => store.pipelines.mapM (pipelineStep config))
      (List.flatMap (List.flatMap fun entry => [entry]))
      fun project => ∀ store ∈ stores, ∀ path ∈ store.pipelines,
        HoldsAt (SourceUnit.PipelinesSettled config) path project :=
  stepSettles_mapM fun _ _ => stepSettles_mapM fun path _ => stepSettles_pipelineStep config path

end CreatorMigration
