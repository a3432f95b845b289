import CreatorMigration.Proofs.Migration.Footprint

/-! # Stages of a migration of actions

A migrated unit of actions is carried through four stages: factories are put in the place of its
classes, the uses of what it declares are handed over, its enum and its alias are removed, and its
imports are aligned.

* `exists_stages` takes a run apart into its stages.
* `Stages.unit?_handed` says that the hand-overs leave the unit itself alone.
-/

namespace CreatorMigration

open Project Update

/-- Each item of a list has its turn behind those in front of it. -/
theorem Update.exists_turn_of_mem {ε α β : Type} {step : α → Update ε β} {items : List α}
    {project result : Project} (ran : runEach step items project = .ok () result) {item : α}
    (member : item ∈ items) :
    ∃ done rest left answer next, items = done ++ item :: rest ∧
      runEach step done project = .ok () left ∧ step item left = .ok answer next ∧
      runEach step rest next = .ok () result := by
  obtain ⟨done, rest, rfl⟩ := List.append_of_mem member
  rw [runEach_append] at ran
  obtain ⟨_, left, ranDone, ranRest⟩ := bind_eq_ok_iff.1 ran
  obtain ⟨answer, next, ranItem, ranOthers⟩ := bind_eq_ok_iff.1 ranRest
  exact ⟨done, rest, left, answer, next, rfl, ranDone, ranItem, ranOthers⟩

/-- The projects that the run of a plan leaves behind, stage by stage. -/
structure UnitPlan.Stages (config : Config) (path : Path) (plan : UnitPlan)
    (project declared handed removed result : Project) : Prop where
  declares : Update.apply path plan.classEdits project = .ok () declared
  handsOver : runEach (handOver config.library) (plan.handOvers config path) declared =
    .ok () handed
  removes : ∃ unit, handed.unit? path = some unit ∧
    Update.apply path (removalEdits plan unit) handed = .ok () removed
  aligns : ∃ difference, alignImports config.library path removed = .ok difference result

section

variable {config : Config} {pattern : Pattern} {path : Path} {project result : Project}

/-- A unit that is migrated has a plan, and the run goes through all stages of it. -/
theorem exists_stages {answer : FactoryCatalog × ActionChanges}
    (ran : migrateActions config pattern path project = .ok (.migrated answer) result) :
    ∃ unit plan, project.unit? path = some unit ∧ UnitPlan.ofUnit config pattern unit = .ok plan ∧
      ∃ declared handed removed,
        plan.Stages config path project declared handed removed result := by
  rw [migrateActions_eq] at ran
  cases found : project.unit? path with
  | none => simp [found] at ran
  | some unit =>
    simp only [found] at ran
    cases planned : UnitPlan.ofUnit config pattern unit with
    | error => simp [planned] at ran
    | ok plan =>
      simp only [planned] at ran
      obtain ⟨_, _, lifted, answered⟩ := bind_eq_ok_iff.1 ran
      obtain ⟨_, rfl⟩ := pure_eq_ok_iff.1 answered
      -- the run ends as the same run without an answer
      obtain ⟨_, staged⟩ := ((runsLike_runUnitPlan config path plan).ends project _).1
        ⟨_, withError_eq_ok_iff.1 lifted⟩
      obtain ⟨_, declared, declares, rest⟩ := bind_eq_ok_iff.1 staged
      obtain ⟨_, handed, handsOver, rest⟩ := bind_eq_ok_iff.1 rest
      obtain ⟨own, _, required, rest⟩ := bind_eq_ok_iff.1 rest
      obtain ⟨foundOwn, rfl⟩ := require_eq_ok_iff.1 required
      obtain ⟨_, removed, removes, rest⟩ := bind_eq_ok_iff.1 rest
      obtain ⟨difference, _, aligns, last⟩ := bind_eq_ok_iff.1 rest
      obtain ⟨_, rfl⟩ := pure_eq_ok_iff.1 last
      exact ⟨unit, plan, rfl, planned, declared, handed, removed,
        ⟨declares, handsOver, ⟨own, foundOwn, removes⟩, ⟨difference, aligns⟩⟩⟩

/-! ## The unit itself -/

theorem declaring_of_mem_handOvers {plan : UnitPlan} {part : HandOver}
    (member : part ∈ plan.handOvers config path) : part.1.declaring = path := by
  rcases List.mem_append.1 member with member | member
  · obtain ⟨entry, _, rfl⟩ := List.mem_map.1 member
    rfl
  · rcases List.mem_cons.1 member with rfl | member
    · rfl
    · obtain ⟨aggregate, _, rfl⟩ := List.mem_map.1 member
      rfl

/-- What refers to a name within the unit that declares it is not handed over. -/
theorem mem_units_of_runEach_handOver {table : ImportTable} {parts : List HandOver}
    (declaring : ∀ part ∈ parts, part.1.declaring = path) (normal : project.HasNormalPaths)
    (ran : runEach (handOver table) parts project = .ok () result) {unit : SourceUnit}
    (member : unit ∈ project.units) (own : (unit.path == path) = true) : unit ∈ result.units := by
  induction parts generalizing project with
  | nil =>
    obtain ⟨_, rfl⟩ := pure_eq_ok_iff.1 ran
    exact member
  | cons first rest inductionHypothesis =>
    obtain ⟨_, between, ranFirst, ranRest⟩ := bind_eq_ok_iff.1 ran
    obtain ⟨firstDeclaring, restDeclaring⟩ := List.forall_mem_cons.1 declaring
    have kept := (replacesWithin_replaceReferences first.1 table first.2 normal).kept
    rw [run_of_ok (show replaceReferences first.1 table first.2 project = _ from ranFirst)] at kept
    refine inductionHypothesis restDeclaring (kept.samePaths.hasNormalPaths normal) ranRest
      (kept.kept unit member fun admitted => ?_)
    rw [ReplacementTarget.Admits, firstDeclaring, own] at admitted
    exact absurd admitted.1 (by decide)

/-- Behind the hand-overs the unit is as the factories were put into it. -/
theorem UnitPlan.Stages.unit?_handed {plan : UnitPlan} {declared handed removed : Project}
    (stages : plan.Stages config path project declared handed removed result)
    (normal : project.HasNormalPaths) (normalPath : path.normalize.components = path.components)
    {unit : SourceUnit} (found : declared.unit? path = some unit) :
    handed.unit? path = some unit := by
  obtain ⟨member, own⟩ := declared.unit?_eq_some_iff.1 found
  have same := (sameBut_apply (apply_eq_ok_iff.1 stages.declares)).samePaths
  have byPath : (unit.path == path) = true :=
    Path.beq_iff.2 ((Path.beq_iff.1 own).trans normalPath)
  refine handed.unit?_eq_some_iff.2 ⟨?_, own⟩
  exact mem_units_of_runEach_handOver (fun _ => declaring_of_mem_handOvers)
    (same.hasNormalPaths normal) stages.handsOver member byPath

end

/-- A configuration by which no name is imported from a library, so that runs stay short. -/
def noLibrary : Config := { library := [] }

end CreatorMigration
