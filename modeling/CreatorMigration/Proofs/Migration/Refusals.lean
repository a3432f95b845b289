import CreatorMigration.Proofs.Migration.Settled

/-! # Refusals

A migration is refused when it passes over its unit or asks for a migration by hand. All checks of a
unit stand in front of the first edit, so a refusal leaves the project as it was, down to what counts
as written.
-/

namespace CreatorMigration

open Project Update

variable {config : Config} {path : Path} {project : Project} {unit : SourceUnit}

/-- The first annotated property without a call is named, and no work is done. -/
theorem run_migrateAnnotated_of_callless {σ : Type} {work : SourceUnit → Update ProjectError σ}
    {property : AnnotatedProperty} (found : project.unit? path = some unit)
    (callless : (AnnotatedProperty.all config unit).find? (fun property => !property.holdsCall) =
      some property) :
    (migrateAnnotated config path work).run project =
      (.error (.unrecognizedPipeline path (property.name unit)), project) := by
  have annotated : (AnnotatedProperty.all config unit).isEmpty = false :=
    List.isEmpty_eq_false_iff_exists_mem.2 ⟨property, List.mem_of_find?_eq_some callless⟩
  have got : (get : Migration Project) project = .ok project project := rfl
  unfold migrateAnnotated
  rw [run_bind_of_ok got, found]
  simp only [annotated, callless]
  rfl

theorem find?_callless_of_last {properties front : List AnnotatedProperty}
    {last : AnnotatedProperty} (split : properties = front ++ [last])
    (calls : ∀ property ∈ front, property.holdsCall = true) (callless : last.holdsCall = false) :
    properties.find? (fun property => !property.holdsCall) = some last := by
  have none : front.find? (fun property => !property.holdsCall) = none :=
    List.find?_eq_none.2 fun property member => by simp [calls property member]
  simp [split, none, callless]

/-- Each of the migrations is refused just for a settled unit, and then nothing has changed. The
pipelines may be worked on in any way; in particular, a single property without a call keeps the ones
in front of it as they are. -/
theorem refusals_untouched (config : Config) (pattern : Pattern) (types : Option ActionTypes)
    (passes : List Pass) (path : Path) (project : Project) :
    RefusesIf (HoldsAt (SourceUnit.ActionsSettled config pattern) path project)
        (migrateActions config pattern path) project ∧
      RefusesIf (HoldsAt (SourceUnit.ReducerSettled config) path project)
        (migrateReducer config path types) project ∧
      RefusesIf (HoldsAt (SourceUnit.PipelinesSettled config) path project)
        (migratePipelines config passes path) project ∧
      (∀ {σ : Type} (work : SourceUnit → Update ProjectError σ),
        RefusesIf (HoldsAt (SourceUnit.PipelinesSettled config) path project)
          (migrateAnnotated config path work) project) ∧
      ∀ unit front last, project.unit? path = some unit →
        AnnotatedProperty.all config unit = front ++ [last] →
          (∀ property ∈ front, property.holdsCall = true) → last.holdsCall = false →
            (migratePipelines config passes path).run project =
              (.error (.unrecognizedPipeline path (last.name unit)), project) := by
  refine ⟨refusesIf_migrateActions config pattern path project,
    refusesIf_migrateReducer config path types project,
    refusesIf_migrateAnnotated config path _ project,
    fun work => refusesIf_migrateAnnotated config path work project, ?_⟩
  intro unit front last found split calls callless
  exact run_migrateAnnotated_of_callless found (find?_callless_of_last split calls callless)

/-- Only the second one of the annotated properties holds no call. -/
def halfCalledProject : Project :=
  ofSources ⟨""⟩ {} [(⟨"a.effects.ts"⟩, "class X\x7b@Effect()a=f();@Effect()b=1\x7d")]

theorem refusals_untouched_halfCalled :
    ∃ unit front last, halfCalledProject.unit? ⟨"a.effects.ts"⟩ = some unit ∧
      AnnotatedProperty.all {} unit = front ++ [last] ∧
      (front.map AnnotatedProperty.holdsCall = [true] ∧ last.holdsCall = false) ∧
      last.name unit = "b" ∧
      (migratePipelines {} Pass.all ⟨"a.effects.ts"⟩).run halfCalledProject =
        (.error (.unrecognizedPipeline ⟨"a.effects.ts"⟩ (last.name unit)), halfCalledProject) := by
  have reads : (halfCalledProject.unit? ⟨"a.effects.ts"⟩).any (fun unit => decide
      ((AnnotatedProperty.all {} unit).map (fun property => (property.holdsCall, property.name unit))
        = [(true, "a"), (false, "b")])) = true := by
    decide +kernel
  obtain ⟨unit, found, annotated⟩ := (Option.any_eq_true _ _).1 reads
  obtain ⟨first, rest, all, called, rest_eq⟩ := List.map_eq_cons_iff.1 (of_decide_eq_true annotated)
  obtain ⟨last, _, rfl, callless, rest_eq⟩ := List.map_eq_cons_iff.1 rest_eq
  obtain rfl := List.map_eq_nil_iff.1 rest_eq
  obtain ⟨calls, -⟩ := Prod.mk.inj called
  obtain ⟨callless, name⟩ := Prod.mk.inj callless
  have refused := (refusals_untouched {} .empty none Pass.all ⟨"a.effects.ts"⟩
    halfCalledProject).2.2.2.2 unit [first] last found all (by simpa using calls) callless
  exact ⟨unit, [first], last, found, all, ⟨by simp [calls], callless⟩, name, refused⟩

end CreatorMigration
