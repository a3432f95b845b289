import CreatorMigration.Proofs.Project.Changes
import CreatorMigration.Proofs.Project.Exporters

/-! # How a missing name is brought in

`Project.alignImports` goes through the names that a unit mentions and does not bind. `BroughtIn`
says what becomes of one of them, and `aligned_of_alignImports` what becomes of each name.
-/

namespace CreatorMigration

/-! ## Import edits -/

/-- The edit imports `name` into the unit, by a list of an import that is there or by a statement of
its own, from a module whose specifier is one of the `specifiers`. -/
inductive SourceUnit.Imports (unit : SourceUnit) (name : String) (specifiers : String → Prop) :
    Edit → Prop where
  | joining {statement : Import} {list : Span} (member : statement ∈ unit.imports)
      (values : statement.typeOnly = false) (braces : statement.namedSpan = some list)
      (names : specifiers statement.source) :
      Imports unit name specifiers (SourceUnit.joinEdit name statement list)
  | adding {specifier : String} (names : specifiers specifier) :
      Imports unit name specifiers (unit.newImportEdit name specifier)

/-- Whether an import of the unit binds the name. -/
def SourceUnit.HasImportOf (unit : SourceUnit) (name : String) : Prop :=
  ∃ statement ∈ unit.imports, name ∈ statement.localNames

instance (unit : SourceUnit) (name : String) : Decidable (unit.HasImportOf name) :=
  inferInstanceAs (Decidable (∃ statement ∈ _, _))

theorem SourceUnit.importEdit?_eq_none_iff {unit : SourceUnit} {name module : String}
    {isSameModule : Import → Bool} :
    unit.importEdit? name module isSameModule = none ↔ unit.HasImportOf name := by
  rw [importEdit?, HasImportOf]
  split
  · next bound => simpa using bound
  · next unbound => simpa using unbound

theorem SourceUnit.imports_of_importEdit? {unit : SourceUnit} {name module : String}
    {isSameModule : Import → Bool} {edit : Edit}
    (made : unit.importEdit? name module isSameModule = some edit) {specifiers : String → Prop}
    (same : ∀ statement ∈ unit.imports, isSameModule statement = true →
      specifiers statement.source)
    (own : specifiers module) : unit.Imports name specifiers edit := by
  rw [importEdit?] at made
  split at made
  · cases made
  · rw [Option.some.injEq] at made
    subst made
    -- the first statement that admits the name takes it, and without one a statement is added
    cases joined : unit.imports.findSome? fun statement =>
        if isSameModule statement && !statement.typeOnly then
          statement.namedSpan.map (joinEdit name statement)
        else none with
    | none => exact .adding own
    | some edit =>
      obtain ⟨statement, member, found⟩ := List.exists_of_findSome?_eq_some joined
      split at found
      · next admitted =>
        rw [Bool.and_eq_true, Bool.not_eq_true'] at admitted
        obtain ⟨list, braces, rfl⟩ := Option.map_eq_some_iff.1 found
        exact .joining member admitted.2 braces (same statement member admitted.1)
      · cases found

namespace Project

/-! ## Bringing in one name -/

/-- The specifiers by which an alignment imports from a unit. -/
def LeadsTo (project : Project) (path target : Path) (specifier : String) : Prop :=
  specifier = path.relativeSpecifier target ∨
    ∃ module ∈ project.resolve path specifier, (module == target) = true

/-- What becomes of a name in the unit at a path, whether that is an import, and the project that is
left. The unit to import from is looked for in `origin`, from which only the importing unit can have
changed. -/
inductive BroughtIn (table : ImportTable) (path : Path) (name : String) (origin project : Project) :
    Bool → Project → Prop where
  | present {unit : SourceUnit} (found : project.unit? path = some unit)
      (bound : unit.HasImportOf name) : BroughtIn table path name origin project false project
  | fromLibrary {unit : SourceUnit} {module : String} {edit : Edit} {result : Project}
      (found : project.unit? path = some unit) (unbound : ¬ unit.HasImportOf name)
      (listed : table.find? name = some module) (imports : unit.Imports name (· = module) edit)
      (applied : project.apply path [edit] = .ok result) :
      BroughtIn table path name origin project true result
  | fromUnit {unit : SourceUnit} {target : Path} {edit : Edit} {result : Project}
      (found : project.unit? path = some unit) (unbound : ¬ unit.HasImportOf name)
      (unlisted : table.find? name = none)
      (nearest : origin.IsNearestExporter path name target)
      (imports : unit.Imports name (origin.LeadsTo path target) edit)
      (applied : project.apply path [edit] = .ok result) :
      BroughtIn table path name origin project true result
  | absent (unlisted : table.find? name = none)
      (without : ∀ target, ¬ origin.IsNearestExporter path name target) :
      BroughtIn table path name origin project false project

theorem SameBut.leadsTo_eq {path : Path} {before after : Project} (same : SameBut path before after)
    (importer target : Path) : after.LeadsTo importer target = before.LeadsTo importer target := by
  funext specifier
  rw [LeadsTo, LeadsTo, same.resolve_eq]

theorem BroughtIn.of_sameBut {table : ImportTable} {path : Path} {name : String}
    {origin other project result : Project} {added : Bool}
    (brought : BroughtIn table path name other project added result)
    (same : SameBut path origin other) (normal : path.normalize.components = path.components) :
    BroughtIn table path name origin project added result := by
  cases brought with
  | present found bound => exact .present found bound
  | fromLibrary found unbound listed imports applied =>
    exact .fromLibrary found unbound listed imports applied
  | fromUnit found unbound unlisted nearest imports applied =>
    rw [same.leadsTo_eq] at imports
    exact .fromUnit found unbound unlisted ((same.isNearestExporter_iff normal).1 nearest) imports
      applied
  | absent unlisted without =>
    exact .absent unlisted fun target nearest =>
      without target ((same.isNearestExporter_iff normal).2 nearest)

theorem importName_eq_ok {path : Path} {name module : String} {isSameModule : Import → Bool}
    {project result : Project} {added : Bool}
    (ran : importName path name module isSameModule project = .ok added result) :
    ∃ unit, project.unit? path = some unit ∧
      ((added = false ∧ result = project ∧ unit.HasImportOf name) ∨
        (added = true ∧ ¬ unit.HasImportOf name ∧
          ∃ edit, unit.importEdit? name module isSameModule = some edit ∧
            project.apply path [edit] = .ok result)) := by
  obtain ⟨unit, between, required, rest⟩ := Update.bind_eq_ok_iff.1 ran
  obtain ⟨found, rfl⟩ := Update.require_eq_ok_iff.1 required
  refine ⟨unit, found, ?_⟩
  cases made : unit.importEdit? name module isSameModule with
  | none =>
    rw [made] at rest
    obtain ⟨rfl, rfl⟩ := Update.pure_eq_ok_iff.1 rest
    exact .inl ⟨rfl, rfl, SourceUnit.importEdit?_eq_none_iff.1 made⟩
  | some edit =>
    rw [made] at rest
    obtain ⟨_, _, applied, rest⟩ := Update.bind_eq_ok_iff.1 rest
    obtain ⟨rfl, rfl⟩ := Update.pure_eq_ok_iff.1 rest
    refine .inr ⟨rfl, fun bound => ?_, edit, rfl, Update.apply_eq_ok_iff.1 applied⟩
    rw [SourceUnit.importEdit?_eq_none_iff.2 bound] at made
    cases made

theorem broughtIn_of_bringIn {table : ImportTable} {path : Path} {name : String}
    {project result : Project} {added : Bool}
    (ran : bringIn table path name project = .ok added result) :
    BroughtIn table path name project project added result := by
  unfold bringIn at ran
  cases listed : table.find? name with
  | some module =>
    rw [listed] at ran
    obtain ⟨unit, found, ⟨rfl, rfl, bound⟩ | ⟨rfl, unbound, edit, made, applied⟩⟩ :=
      importName_eq_ok ran
    · exact .present found bound
    · refine .fromLibrary found unbound listed ?_ applied
      exact SourceUnit.imports_of_importEdit? made (fun _ _ same => eq_of_beq same) rfl
  | none =>
    simp only [listed] at ran
    obtain ⟨_, _, got, rest⟩ := Update.bind_eq_ok_iff.1 ran
    obtain ⟨rfl, rfl⟩ := Update.get_eq_ok_iff.1 got
    cases exporter : project.exporter? path name with
    | none =>
      rw [exporter] at rest
      obtain ⟨rfl, rfl⟩ := Update.pure_eq_ok_iff.1 rest
      refine .absent listed fun target nearest => ?_
      rw [exporter?_eq_some_iff.2 nearest] at exporter
      cases exporter
    | some target =>
      rw [exporter] at rest
      obtain ⟨_, _, got, rest⟩ := Update.bind_eq_ok_iff.1 rest
      obtain ⟨rfl, rfl⟩ := Update.get_eq_ok_iff.1 got
      obtain ⟨unit, found, ⟨rfl, rfl, bound⟩ | ⟨rfl, unbound, edit, made, applied⟩⟩ :=
        importName_eq_ok rest
      · exact .present found bound
      · refine .fromUnit found unbound listed (exporter?_eq_some_iff.1 exporter) ?_ applied
        refine SourceUnit.imports_of_importEdit? made (fun statement _ same => .inr ?_) (.inl rfl)
        exact (Option.any_eq_true _ _).1 same

/-! ## Bringing in all names -/

theorem bringInAll_cons_eq_ok {table : ImportTable} {path : Path} {name : String}
    {names brought : List String} {project result : Project}
    (ran : bringInAll table path (name :: names) project = .ok brought result) :
    ∃ added between others, bringIn table path name project = .ok added between ∧
      bringInAll table path names between = .ok others result ∧
      brought = if added then name :: others else others := by
  obtain ⟨added, between, first, rest⟩ := Update.bind_eq_ok_iff.1 ran
  obtain ⟨others, last, second, rest⟩ := Update.bind_eq_ok_iff.1 rest
  obtain ⟨rfl, rfl⟩ := Update.pure_eq_ok_iff.1 rest
  exact ⟨added, between, others, first, second, rfl⟩

theorem subset_of_bringInAll {table : ImportTable} {path : Path} {names brought : List String}
    {project result : Project} (ran : bringInAll table path names project = .ok brought result)
    {name : String} (member : name ∈ brought) : name ∈ names := by
  induction names generalizing project brought with
  | nil =>
    obtain ⟨rfl, _⟩ := Update.pure_eq_ok_iff.1 ran
    exact member
  | cons first rest inductionHypothesis =>
    obtain ⟨added, _, _, _, others, rfl⟩ := bringInAll_cons_eq_ok ran
    cases added with
    | false => exact List.mem_cons_of_mem _ (inductionHypothesis others member)
    | true =>
      rcases List.mem_cons.1 member with rfl | member
      · exact List.mem_cons_self
      · exact List.mem_cons_of_mem _ (inductionHypothesis others member)

/-- Each of the names has its turn, at which only the unit at the path can have changed. -/
theorem exists_broughtIn {table : ImportTable} {path : Path} {names brought : List String}
    {project result : Project} (ran : bringInAll table path names project = .ok brought result)
    (normal : path.normalize.components = path.components) (once : names.Nodup) {name : String}
    (member : name ∈ names) :
    ∃ stage next added, SameBut path project stage ∧
      BroughtIn table path name project stage added next ∧ (name ∈ brought ↔ added = true) := by
  induction names generalizing project brought with
  | nil => simp at member
  | cons first rest inductionHypothesis =>
    obtain ⟨added, between, others, step, ranRest, rfl⟩ := bringInAll_cons_eq_ok ran
    obtain ⟨absent, onceRest⟩ := List.nodup_cons.1 once
    rcases List.mem_cons.1 member with rfl | member
    · refine ⟨project, between, added, .refl project, broughtIn_of_bringIn step, ?_⟩
      have notLater : name ∉ others := fun later => absent (subset_of_bringInAll ranRest later)
      cases added <;> simp [notLater]
    · obtain ⟨stage, next, addedThen, same, stepThen, listed⟩ :=
        inductionHypothesis ranRest onceRest member
      -- the others export the same names from the start on, as only the importer has changed
      have stepSame : SameBut path project between := (changesOnly_bringIn table first).sameBut step
      refine ⟨stage, next, addedThen, stepSame.trans same, stepThen.of_sameBut stepSame normal, ?_⟩
      have different : name ≠ first := fun equal => absent (equal ▸ member)
      cases added <;> simp [different, listed]

/-! ## Alignment -/

theorem nodup_namesMissing (unit : SourceUnit) : unit.namesMissing.Nodup := by
  refine List.Nodup.filter _ ?_
  refine (Ordered.pairwise_ofList compare _).imp ?_
  intro left right below same
  subst same
  exact absurd below (by simp)

theorem mem_namesMissing {unit : SourceUnit} {name : String} :
    name ∈ unit.namesMissing ↔ name ∈ unit.namesUsed ∧ name ∉ unit.namesBound := by
  simp [SourceUnit.namesMissing]

theorem alignImports_eq_ok {table : ImportTable} {path : Path} {project result : Project}
    {changes : ImportDifference} (ran : alignImports table path project = .ok changes result) :
    ∃ before brought between after, project.unit? path = some before ∧
      bringInAll table path before.namesMissing project = .ok brought between ∧
      between.unit? path = some after ∧
      between.apply path (after.unusedImportEdits before.namesUsed) = .ok result ∧
      changes = { added := brought, removed := after.unusedImports before.namesUsed } := by
  obtain ⟨before, _, required, rest⟩ := Update.bind_eq_ok_iff.1 ran
  obtain ⟨found, rfl⟩ := Update.require_eq_ok_iff.1 required
  obtain ⟨brought, between, all, rest⟩ := Update.bind_eq_ok_iff.1 rest
  obtain ⟨after, _, required, rest⟩ := Update.bind_eq_ok_iff.1 rest
  obtain ⟨foundAfter, rfl⟩ := Update.require_eq_ok_iff.1 required
  obtain ⟨_, _, applied, rest⟩ := Update.bind_eq_ok_iff.1 rest
  obtain ⟨rfl, rfl⟩ := Update.pure_eq_ok_iff.1 rest
  exact ⟨before, brought, between, after, found, all, foundAfter, Update.apply_eq_ok_iff.1 applied,
    rfl⟩

/-- What becomes of a name that a unit mentions: it is kept where it is imported, it is not imported
when anything in the unit binds it, and otherwise it has its turn to be brought in. -/
structure Aligned (table : ImportTable) (path : Path) (project : Project) (unit : SourceUnit)
    (changes : ImportDifference) (name : String) : Prop where
  kept : name ∉ changes.removed
  bound : name ∈ unit.namesBound → name ∉ changes.added
  missing : name ∉ unit.namesBound → ∃ stage next added, SameBut path project stage ∧
    BroughtIn table path name project stage added next ∧ (name ∈ changes.added ↔ added = true)

theorem aligned_of_alignImports {table : ImportTable} {path : Path} {project result : Project}
    {changes : ImportDifference} (ran : alignImports table path project = .ok changes result)
    (normal : path.normalize.components = path.components) :
    ∃ unit, project.unit? path = some unit ∧
      ∀ name ∈ unit.namesUsed, Aligned table path project unit changes name := by
  obtain ⟨unit, brought, between, after, found, all, _, _, rfl⟩ := alignImports_eq_ok ran
  refine ⟨unit, found, fun name mentioned => ⟨?_, ?_, ?_⟩⟩
  -- only imports of names that were not mentioned at the start are taken out
  · intro removed
    obtain ⟨statement, _, listed⟩ := List.mem_flatMap.1 removed
    obtain ⟨specifier, unused, rfl⟩ := List.mem_map.1 listed
    have absent := (List.mem_filter.1 unused).2
    rw [SourceUnit.isUnused, List.contains_iff_mem.2 mentioned] at absent
    exact absurd absent (by decide)
  · intro bound added
    exact (mem_namesMissing.1 (subset_of_bringInAll all added)).2 bound
  · intro unbound
    exact exists_broughtIn all normal (nodup_namesMissing unit) (mem_namesMissing.2 ⟨mentioned, unbound⟩)

end Project

end CreatorMigration
