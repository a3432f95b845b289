import CreatorMigration.Proofs.Migration.Removals
import CreatorMigration.Proofs.Project.Spellings

/-! # Migrations by spellings of a path

`Project.ActsAlike` lists the operations that compare or measure the path that they are given, up to
the migration of a unit of actions. `spellings_actAlike_iff` says for which spellings of the path of
a unit they do what they do for the path itself.
-/

namespace CreatorMigration

open Project Update

variable {spelling path : Path}

/-! ## Replacing references -/

section

variable (same : spelling.components = path.components)

include same

theorem batches_congr (name : String) (skips : Path → Bool) (rule : ReplacementRule)
    (project : Project) :
    ReplacementTarget.batches ⟨spelling, name, skips⟩ rule project =
      ReplacementTarget.batches ⟨path, name, skips⟩ rule project := by
  have included : ReplacementTarget.includes ⟨spelling, name, skips⟩ =
      ReplacementTarget.includes ⟨path, name, skips⟩ := by
    funext reference
    simp only [ReplacementTarget.includes, Path.beq_congr_right same]
  have references : project.references spelling name = project.references path name := by
    rw [Project.references, Project.references, Path.normalize_congr same]
  simp only [ReplacementTarget.batches, included, references]

theorem replaceReferences_congr (name : String) (skips : Path → Bool) (table : ImportTable)
    (rule : ReplacementRule) :
    replaceReferences ⟨spelling, name, skips⟩ table rule =
      replaceReferences ⟨path, name, skips⟩ table rule := by
  have round : replaceRound ⟨spelling, name, skips⟩ rule =
      replaceRound ⟨path, name, skips⟩ rule := by
    simp only [replaceRound, batches_congr same]
  -- the rounds go by the batches alone
  have rounds (count : Nat) : replaceRounds ⟨spelling, name, skips⟩ rule count =
      replaceRounds ⟨path, name, skips⟩ rule count := by
    induction count with
    | zero => rfl
    | succ count inductionHypothesis =>
      rw [replaceRounds, replaceRounds, round, inductionHypothesis]
  rw [replaceReferences, replaceReferences, rounds]

theorem alikeAt_replaceReferences (name : String) (skips : Path → Bool) (table : ImportTable)
    (rule : ReplacementRule) :
    AlikeAt path (replaceReferences ⟨spelling, name, skips⟩ table rule)
      (replaceReferences ⟨path, name, skips⟩ table rule) :=
  .of_eq (replaceReferences_congr same name skips table rule) fun ran =>
    (samePaths_replaceReferences ran).paths_eq

theorem alikeAt_replaceClasses (config : Config) (entries : List FactoryPlan) :
    AlikeAt path (replaceClasses config spelling entries) (replaceClasses config path entries) := by
  induction entries with
  | nil => exact .pure rfl
  | cons entry rest inductionHypothesis =>
    exact (alikeAt_replaceReferences same _ _ _ _).bind fun _ =>
      inductionHypothesis.bind fun _ => .pure rfl

theorem alikeAt_replaceAlias (config : Config) (aggregate : Option AliasPlan) :
    AlikeAt path (replaceAlias config spelling aggregate) (replaceAlias config path aggregate) := by
  cases aggregate with
  | none => exact .pure rfl
  | some aggregate => exact alikeAt_replaceReferences same _ _ _ _

/-! ## The migration of a unit of actions -/

theorem alikeAt_runUnitPlan (config : Config) (plan : UnitPlan) :
    AlikeAt path (runUnitPlan config spelling plan) (runUnitPlan config path plan) := by
  have sameNormal := Path.normalize_congr same
  refine (alikeAt_apply sameNormal _).bind fun _ => ?_
  refine (alikeAt_replaceClasses same config plan.classes).bind fun classes => ?_
  refine (alikeAt_replaceReferences same _ _ _ _).bind fun enum => ?_
  refine (alikeAt_replaceAlias same config plan.aggregate).bind fun aggregate => ?_
  refine (alikeAt_require sameNormal).bind fun unit => ?_
  refine (alikeAt_apply sameNormal _).bind fun _ => ?_
  refine (alikeAt_alignImports same config.library).bind fun _ => ?_
  exact .pure (by simp only [Path.beq_congr_right same])

theorem migrateActions_congr (config : Config) (pattern : Pattern) {project : Project}
    (contained : project.contains path = true) :
    migrateActions config pattern spelling project =
      migrateActions config pattern path project := by
  rw [migrateActions_eq, migrateActions_eq, (ReadsAlike.of_normalize
    (Path.normalize_congr same) contained).unit?_eq]
  cases project.unit? path with
  | none => rfl
  | some unit =>
    dsimp only
    cases UnitPlan.ofUnit config pattern unit with
    | error reason => rfl
    | ok plan =>
      dsimp only
      have lifted : Migration.lift (runUnitPlan config spelling plan) project =
          Migration.lift (runUnitPlan config path plan) project := by
        rw [Migration.lift, Migration.lift, Update.withError, Update.withError,
          (alikeAt_runUnitPlan same config plan).same contained]
      change EStateM.bind _ _ project = EStateM.bind _ _ project
      rw [EStateM.bind, EStateM.bind, lifted]

end

/-! ## Operations that tell spellings apart -/

/-- What a project answers, and what it is changed into, alike for two paths. -/
structure Project.ActsAlike (project : Project) (spelling path : Path) : Prop where
  exporter?_eq : ∀ name, project.exporter? spelling name = project.exporter? path name
  resolve_eq : ∀ specifier, project.resolve spelling specifier = project.resolve path specifier
  alignImports_eq : ∀ table,
    alignImports table spelling project = alignImports table path project
  replaceReferences_eq : ∀ name skips table rule,
    replaceReferences ⟨spelling, name, skips⟩ table rule project =
      replaceReferences ⟨path, name, skips⟩ table rule project
  migrateActions_eq : ∀ config pattern,
    migrateActions config pattern spelling project = migrateActions config pattern path project

theorem Project.ActsAlike.of_components (same : spelling.components = path.components)
    {project : Project} (contained : project.contains path = true) :
    project.ActsAlike spelling path where
  exporter?_eq := exporter?_congr same project
  resolve_eq := resolve_congr same project
  alignImports_eq table := (alikeAt_alignImports same table).same contained
  replaceReferences_eq name skips table rule := by rw [replaceReferences_congr same]
  migrateActions_eq config pattern := migrateActions_congr same config pattern contained

/-- A project of one unit, which exports a name. -/
def onlyExporter (path : Path) : Project :=
  ofSources ⟨""⟩ {} [(path, "export const f = 1;\n")]

theorem exporters_onlyExporter (path : Path) :
    (onlyExporter path).exporters "f" = [path.normalize] := by
  have exported : (SourceUnit.ofText path.normalize "export const f = 1;\n").exportedNames =
      ["f"] := by
    -- what a unit exports does not depend on its path
    change (SourceUnit.ofText ⟨""⟩ "export const f = 1;\n").exportedNames = ["f"]
    decide +kernel
  have units : (onlyExporter path).units =
      [SourceUnit.ofText path.normalize "export const f = 1;\n"] := rfl
  rw [exporters, units, List.filter_cons, exported]
  rfl

/-- The only exporter of a name is left out by its own path, and by no path with other
components. -/
theorem components_eq_of_exporter?_eq (same : (spelling.normalize == path) = true)
    (alike : (onlyExporter path).exporter? spelling "f" = (onlyExporter path).exporter? path "f") :
    spelling.components = path.components := by
  have stored : (path.normalize == path) = true := by
    rw [← Path.normalize_eq_of_beq same]
    exact same
  simp only [exporter?, exporters_onlyExporter, List.filter_cons, List.filter_nil, stored] at alike
  by_contra different
  have apart : (path.normalize == spelling) = false := by
    rw [Path.beq_congr (Path.beq_iff.1 stored), Bool.eq_false_iff]
    exact fun equal => different (Path.beq_iff.1 equal).symm
  simp [apart] at alike

theorem contains_onlyExporter (path : Path) : (onlyExporter path).contains path = true := by
  refine Option.isSome_iff_exists.2 ⟨SourceUnit.ofText path.normalize _,
    (unit?_eq_some_iff _).2 ⟨List.mem_singleton.2 rfl, Path.beq_iff.2 rfl⟩⟩

/-- Whatever the spelling of the path of a unit, it is found, changed and referred to alike, and a
name is imported into it alike; specifiers are resolved alike from a spelling that ends in a name.
The other operations do the same in all projects exactly for the spellings that are read as the
path itself. -/
theorem spellings_actAlike_iff (same : (spelling.normalize == path) = true) :
    (∀ project : Project, project.contains path = true →
      project.ReadsAlike spelling path ∧
        (spelling.fileName?.isSome = true → ∀ specifier,
          project.resolve spelling specifier = project.resolve path specifier)) ∧
    ((∀ project : Project, project.contains path = true → project.ActsAlike spelling path) ↔
      spelling.components = path.components) := by
  refine ⟨fun project contained => ⟨.of_normalize (Path.normalize_eq_of_beq same) contained,
    fun named => project.resolve_spelling same named⟩, fun alike => ?_, fun equal project =>
    .of_components equal⟩
  exact components_eq_of_exporter?_eq same
    ((alike (onlyExporter path) (contains_onlyExporter path)).exporter?_eq "f")

/-- A unit that uses the class that it declares. -/
def ownUse : Project :=
  ofSources ⟨""⟩ {} [(⟨"d.ts"⟩, "export class Load \x7b\x7d\nnew Load();\n")]

theorem spellings_actAlike_iff_leadingDot :
    (Path.normalize ⟨"./d.ts"⟩ == ⟨"d.ts"⟩) = true ∧ ownUse.contains ⟨"d.ts"⟩ = true ∧
      ownUse.ReadsAlike ⟨"./d.ts"⟩ ⟨"d.ts"⟩ ∧
      ((∀ project : Project, project.contains ⟨"d.ts"⟩ = true →
          project.ActsAlike ⟨"./d.ts"⟩ ⟨"d.ts"⟩) ↔
        Path.components ⟨"./d.ts"⟩ = Path.components ⟨"d.ts"⟩) := by
  have same : (Path.normalize ⟨"./d.ts"⟩ == ⟨"d.ts"⟩) = true := by decide +kernel
  have contained : ownUse.contains ⟨"d.ts"⟩ = true := by decide +kernel
  obtain ⟨reads, acts⟩ := spellings_actAlike_iff same
  exact ⟨same, contained, (reads ownUse contained).1, acts⟩

/-- By another spelling of its path the unit that declares a class is taken for one that uses it. -/
theorem not_actsAlike_ownUse :
    (Path.normalize ⟨"./d.ts"⟩ == ⟨"d.ts"⟩) = true ∧ ownUse.contains ⟨"d.ts"⟩ = true ∧
      ¬ ownUse.ActsAlike ⟨"./d.ts"⟩ ⟨"d.ts"⟩ := by
  refine ⟨by decide +kernel, by decide +kernel, fun alike => ?_⟩
  have byPath : succeedsWith (fun outcome _ => decide (outcome.count = 0))
      (replaceReferences ⟨⟨"d.ts"⟩, "Load", fun _ => false⟩ [] (classRule ⟨"load", none⟩)
        ownUse) = true := by
    decide +kernel
  have bySpelling : succeedsWith (fun outcome _ => decide (outcome.count = 1))
      (replaceReferences ⟨⟨"./d.ts"⟩, "Load", fun _ => false⟩ [] (classRule ⟨"load", none⟩)
        ownUse) = true := by
    decide +kernel
  rw [alike.replaceReferences_eq] at bySpelling
  obtain ⟨outcome, result, ran, none⟩ := exists_of_succeedsWith byPath
  rw [ran] at bySpelling
  exact absurd ((of_decide_eq_true none).symm.trans (of_decide_eq_true bySpelling)) (by decide)

end CreatorMigration
