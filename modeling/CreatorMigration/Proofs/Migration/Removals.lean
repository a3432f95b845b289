import CreatorMigration.Proofs.Migration.Plans
import CreatorMigration.Proofs.Migration.Rounds

/-! # Removals that overlap

The migration of a unit of actions puts factories in the place of the classes, hands over what
refers to them, and removes declarations and imports that are left over.

* `migrateActions_fails_iff` says that it fails exactly when two of the spans that it removes at a
  time overlap; the steps before the removal are kept then.
* `disjoint_removalEdits` says which layouts of a unit keep the removals of its enum and of its alias
  clear of each other.
-/

namespace CreatorMigration

open Project Update

/-! ## Runs that differ in their answers -/

namespace Update

variable {ε α β γ δ : Type}

/-- The updates change projects alike and fail alike, whatever they answer. -/
structure RunsLike (update : Update ε α) (other : Update ε β) : Prop where
  ends : ∀ before after,
    (∃ answer, update before = .ok answer after) ↔ ∃ answer, other before = .ok answer after
  fails : ∀ project, update.Fails project ↔ other.Fails project

theorem RunsLike.refl (update : Update ε α) : RunsLike update update :=
  ⟨fun _ _ => Iff.rfl, fun _ => Iff.rfl⟩

theorem RunsLike.symm {update : Update ε α} {other : Update ε β} (alike : RunsLike update other) :
    RunsLike other update :=
  ⟨fun before after => (alike.ends before after).symm, fun project => (alike.fails project).symm⟩

theorem runsLike_pure (value : α) (other : β) :
    RunsLike (pure value : Update ε α) (pure other : Update ε β) := by
  refine ⟨fun before after => ?_, fun project => ?_⟩
  · simp only [pure_eq_ok_iff, exists_and_right, exists_eq']
  · exact iff_of_false (not_fails_pure _) (not_fails_pure _)

/-- What comes next may differ from answer to answer, but not in what it changes. -/
theorem RunsLike.bind {update : Update ε α} {other : Update ε β} {next : α → Update ε γ}
    {otherNext : β → Update ε δ} (first : RunsLike update other)
    (second : ∀ answer otherAnswer, RunsLike (next answer) (otherNext otherAnswer)) :
    RunsLike (update >>= next) (other >>= otherNext) := by
  refine ⟨fun before after => ?_, fun project => ?_⟩
  · simp only [bind_eq_ok_iff]
    constructor
    · rintro ⟨answer, value, between, ran, rest⟩
      obtain ⟨otherValue, otherRan⟩ := (first.ends before between).1 ⟨value, ran⟩
      obtain ⟨otherAnswer, otherRest⟩ :=
        ((second value otherValue).ends between after).1 ⟨answer, rest⟩
      exact ⟨otherAnswer, otherValue, between, otherRan, otherRest⟩
    · rintro ⟨otherAnswer, otherValue, between, otherRan, otherRest⟩
      obtain ⟨value, ran⟩ := (first.ends before between).2 ⟨otherValue, otherRan⟩
      obtain ⟨answer, rest⟩ :=
        ((second value otherValue).ends between after).2 ⟨otherAnswer, otherRest⟩
      exact ⟨answer, value, between, ran, rest⟩
  · rw [fails_bind_iff, fails_bind_iff, first.fails]
    refine or_congr_right ⟨?_, ?_⟩
    · rintro ⟨value, between, ran, failed⟩
      obtain ⟨otherValue, otherRan⟩ := (first.ends project between).1 ⟨value, ran⟩
      exact ⟨otherValue, between, otherRan, ((second value otherValue).fails between).1 failed⟩
    · rintro ⟨otherValue, between, otherRan, failed⟩
      obtain ⟨value, ran⟩ := (first.ends project between).2 ⟨otherValue, otherRan⟩
      exact ⟨value, between, ran, ((second value otherValue).fails between).2 failed⟩

/-- Behind the same update. -/
theorem runsLike_bind (update : Update ε α) {next : α → Update ε β} {otherNext : α → Update ε γ}
    (second : ∀ answer, RunsLike (next answer) (otherNext answer)) :
    RunsLike (update >>= next) (update >>= otherNext) := by
  refine ⟨fun before after => ?_, fun project => ?_⟩
  · simp only [bind_eq_ok_iff]
    constructor
    · rintro ⟨answer, value, between, ran, rest⟩
      obtain ⟨other, otherRest⟩ := ((second value).ends between after).1 ⟨answer, rest⟩
      exact ⟨other, value, between, ran, otherRest⟩
    · rintro ⟨other, value, between, ran, otherRest⟩
      obtain ⟨answer, rest⟩ := ((second value).ends between after).2 ⟨other, otherRest⟩
      exact ⟨answer, value, between, ran, rest⟩
  · simp only [fails_bind_iff, (second _).fails]

/-- What an update answers may be changed behind it. -/
theorem RunsLike.map {update : Update ε α} {other : Update ε β} (alike : RunsLike update other)
    (change : α → γ) : RunsLike (update >>= fun answer => pure (change answer)) other := by
  have behind := alike.bind fun answer otherAnswer => runsLike_pure (change answer) otherAnswer
  rwa [bind_pure] at behind

end Update

/-! ## Hand-overs -/

/-- The references to a target, and the rule that they are replaced by. -/
abbrev HandOver := ReplacementTarget × ReplacementRule

def handOver (table : ImportTable) (part : HandOver) : Update ProjectError Replacements :=
  replaceReferences part.1 table part.2

/-- The removals of unused imports that a hand-over comes to. -/
def HandOver.DropsImports (table : ImportTable) (part : HandOver) : Project → List Edit → Prop :=
  DropsImportsBehind part.1 table part.2

theorem samePaths_runEach_handOver {table : ImportTable} {parts : List HandOver}
    {project result : Project} {answer : Unit}
    (ran : runEach (handOver table) parts project = .ok answer result) :
    SamePaths project result := by
  induction parts generalizing project with
  | nil =>
    obtain ⟨_, rfl⟩ := pure_eq_ok_iff.1 ran
    exact .refl project
  | cons first rest inductionHypothesis =>
    obtain ⟨_, _, ranFirst, others⟩ := bind_eq_ok_iff.1 ran
    exact (samePaths_replaceReferences ranFirst).trans (inductionHypothesis others)

theorem fails_runEach_handOver_iff {table : ImportTable} {parts : List HandOver}
    (fit : ∀ part ∈ parts, part.2.Fits) {project : Project} (normal : project.HasNormalPaths) :
    (runEach (handOver table) parts).Fails project ↔
      ∃ removals, ComesTo (handOver table) (HandOver.DropsImports table) parts project removals ∧
        ¬ Edit.Disjoint removals :=
  fails_runEach_iff_comesTo fun {_ part _ _} split ran =>
    fails_replaceReferences_iff (fit part (by simp [split]))
      ((samePaths_runEach_handOver ran).hasNormalPaths normal)

namespace UnitPlan

/-- The edits that put a factory in the place of each class. -/
def classEdits (plan : UnitPlan) : List Edit :=
  plan.classes.map fun entry => ⟨entry.statement, entry.replacement⟩

def classHandOver (path : Path) (entry : FactoryPlan) : HandOver :=
  (⟨path, entry.name, fun _ => false⟩, classRule entry.factory)

def enumHandOver (config : Config) (path : Path) (plan : UnitPlan) : HandOver :=
  let isLeftOut (unit : Path) : Bool :=
    let role := StorePart.ofPath config.naming unit
    decide (role = .reducer) || decide (role = .pipeline)
  (⟨path, plan.enum, isLeftOut⟩, enumRule (FactoryCatalog.ofPlan plan))

def aliasHandOver (path : Path) (aggregate : AliasPlan) : HandOver :=
  (⟨path, aggregate.name, fun _ => false⟩, aliasRule aggregate)

/-- What is handed over to the factories: the classes, the enum and the aggregate alias. -/
def handOvers (config : Config) (path : Path) (plan : UnitPlan) : List HandOver :=
  plan.classes.map (classHandOver path) ++
    enumHandOver config path plan :: plan.aggregate.toList.map (aliasHandOver path)

theorem fits_of_mem_handOvers {config : Config} {path : Path} {plan : UnitPlan} {part : HandOver}
    (member : part ∈ plan.handOvers config path) : part.2.Fits := by
  rcases List.mem_append.1 member with member | member
  · obtain ⟨entry, _, rfl⟩ := List.mem_map.1 member
    exact fits_classRule entry.factory
  · rcases List.mem_cons.1 member with rfl | member
    · exact fits_enumRule _
    · obtain ⟨aggregate, _, rfl⟩ := List.mem_map.1 member
      exact fits_aliasRule aggregate

end UnitPlan

theorem runsLike_replaceClasses (config : Config) (path : Path) (entries : List FactoryPlan) :
    RunsLike (replaceClasses config path entries)
      (runEach (handOver config.library) (entries.map (UnitPlan.classHandOver path))) := by
  induction entries with
  | nil => exact runsLike_pure _ _
  | cons entry rest inductionHypothesis => exact runsLike_bind _ fun _ => inductionHypothesis.map _

theorem runsLike_replaceAlias (config : Config) (path : Path) (aggregate : Option AliasPlan) :
    RunsLike (replaceAlias config path aggregate)
      (runEach (handOver config.library) (aggregate.toList.map (UnitPlan.aliasHandOver path))) := by
  cases aggregate with
  | none => exact runsLike_pure _ _
  | some aggregate => exact ((RunsLike.refl _).map fun _ => ()).symm

/-- The run of a plan without its answer. -/
theorem runsLike_runUnitPlan (config : Config) (path : Path) (plan : UnitPlan) :
    RunsLike (runUnitPlan config path plan) do
      Update.apply path plan.classEdits
      runEach (handOver config.library) (plan.handOvers config path)
      let unit ← Update.require path
      Update.apply path (removalEdits plan unit)
      let _ ← Project.alignImports config.library path
      return () := by
  unfold runUnitPlan UnitPlan.handOvers
  refine runsLike_bind _ fun _ => ?_
  rw [runEach_append, bind_assoc]
  refine (runsLike_replaceClasses config path plan.classes).bind fun _ _ => ?_
  rw [runEach, bind_assoc]
  refine (RunsLike.refl _).bind fun _ _ => ?_
  refine (runsLike_replaceAlias config path plan.aggregate).bind fun _ _ => ?_
  refine runsLike_bind _ fun unit => runsLike_bind _ fun _ => runsLike_bind _ fun _ => ?_
  exact runsLike_pure _ _

/-! ## The classes and the declarations -/

/-- Each class is replaced where it is declared. -/
theorem UnitPlan.statements_eq {config : Config} {unit : SourceUnit} {types : ActionTypes}
    {declarations : List Declaration} {entries : List FactoryPlan}
    (planned : List.Forall₂ (fun declaration entry =>
      FactoryPlan.ofDeclaration config unit types declaration = .ok entry) declarations entries) :
    entries.map FactoryPlan.statement =
      declarations.map fun declaration => declaration.statement.node.span := by
  induction planned with
  | nil => rfl
  | cons first _ inductionHypothesis =>
    obtain ⟨_, _, _, _, _, rfl⟩ := FactoryPlan.ofDeclaration_eq_ok_iff.1 first
    rw [List.map_cons, List.map_cons, inductionHypothesis]
    rfl

theorem UnitPlan.inOrder_classEdits {config : Config} {pattern : Pattern} {unit : SourceUnit}
    {plan : UnitPlan} (read : ofUnit config pattern unit = .ok plan) :
    Span.InOrder unit.text unit.tree.span.start unit.tree.span.stop
      (plan.classEdits.map Edit.span) := by
  obtain ⟨_, first, rest, _, _, _, classes, _⟩ := ofUnit_eq_ok_iff.1 read
  have spans : plan.classEdits.map Edit.span = plan.classes.map FactoryPlan.statement := by
    rw [classEdits, List.map_map]
    rfl
  rw [spans, statements_eq classes]
  exact SourceUnit.inOrder_declarationsOfKind (by decide) unit

theorem Edit.disjoint_of_inOrder {text : String} {lower upper : Nat} {edits : List Edit}
    (inOrder : Span.InOrder text lower upper (edits.map Edit.span)) : Edit.Disjoint edits :=
  (List.pairwise_map.1 inOrder.pairwise).imp fun stops => overlaps_eq_false_iff.2 (.inr stops)

theorem isIn_of_mem_removalEdits {plan : UnitPlan} {unit : SourceUnit} {edit : Edit}
    (member : edit ∈ removalEdits plan unit) : edit.span.IsIn unit.text := by
  obtain ⟨name, _, removes⟩ := List.mem_filterMap.1 member
  obtain ⟨declaration, found, rfl⟩ := Option.map_eq_some_iff.1 removes
  rw [Edit.span_delete]
  exact SourceUnit.isIn_removalSpan
    (SourceUnit.mem_topLevel_of_mem_declarations (List.mem_of_find?_eq_some found))

/-- The removals of the enum and of the alias do not overlap when anything but spacing stands
between the two statements with their doc comments. -/
theorem disjoint_removalEdits {plan : UnitPlan} {unit : SourceUnit}
    (apart : ∀ aggregate ∈ plan.aggregate, ∀ enum ∈ unit.declaration? plan.enum,
      ∀ union ∈ unit.declaration? aggregate.name,
        unit.IsApart (unit.documented enum.statement) (unit.documented union.statement) ∨
          unit.IsApart (unit.documented union.statement) (unit.documented enum.statement)) :
    Edit.Disjoint (removalEdits plan unit) := by
  have isIn {name : String} {declaration : Declaration}
      (found : unit.declaration? name = some declaration) :
      (unit.documented declaration.statement).IsIn unit.text :=
    (SourceUnit.isIn_documented
      (SourceUnit.mem_topLevel_of_mem_declarations (List.mem_of_find?_eq_some found))).1
  unfold removalEdits Edit.Disjoint
  rw [List.pairwise_filterMap, List.pairwise_cons]
  refine ⟨?_, by cases plan.aggregate <;> simp⟩
  intro name member edit enumRemoved other unionRemoved
  obtain ⟨aggregate, aggregated, rfl⟩ := Option.map_eq_some_iff.1 (Option.mem_toList.1 member)
  obtain ⟨enum, enumFound, rfl⟩ := Option.map_eq_some_iff.1 enumRemoved
  obtain ⟨union, unionFound, rfl⟩ := Option.map_eq_some_iff.1 unionRemoved
  rw [Edit.overlaps_eq_false_iff, Edit.span_delete, Edit.span_delete, SourceUnit.removalSpan_eq,
    SourceUnit.removalSpan_eq]
  rcases apart aggregate aggregated enum enumFound union unionFound with enumFirst | unionFirst
  · exact .inr (SourceUnit.removals_apart (isIn enumFound) (isIn unionFound) enumFirst)
  · exact .inl (SourceUnit.removals_apart (isIn unionFound) (isIn enumFound) unionFirst)

/-! ## The migration -/

/-- The removals that the run of a plan comes to: those of unused imports behind a hand-over, those
of the enum and of the alias behind all of them, and those of unused imports of the unit in the
end. -/
inductive UnitPlan.Removes (config : Config) (path : Path) (plan : UnitPlan) (project : Project) :
    List Edit → Prop
  | behindHandOver {declared : Project} {removals : List Edit}
      (declares : Update.apply path plan.classEdits project = .ok () declared)
      (drops : ComesTo (handOver config.library) (HandOver.DropsImports config.library)
        (plan.handOvers config path) declared removals) : Removes config path plan project removals
  | declarations {declared handed : Project} {unit : SourceUnit}
      (declares : Update.apply path plan.classEdits project = .ok () declared)
      (handsOver : runEach (handOver config.library) (plan.handOvers config path) declared =
        .ok () handed)
      (found : handed.unit? path = some unit) :
      Removes config path plan project (removalEdits plan unit)
  | imports {declared handed removed : Project} {unit : SourceUnit} {removals : List Edit}
      (declares : Update.apply path plan.classEdits project = .ok () declared)
      (handsOver : runEach (handOver config.library) (plan.handOvers config path) declared =
        .ok () handed)
      (found : handed.unit? path = some unit)
      (removes : Update.apply path (removalEdits plan unit) handed = .ok () removed)
      (drops : DropsImports config.library path removed removals) :
      Removes config path plan project removals

theorem not_fails_classEdits {config : Config} {pattern : Pattern} {path : Path}
    {project : Project} {unit : SourceUnit} (found : project.unit? path = some unit)
    {plan : UnitPlan} (read : UnitPlan.ofUnit config pattern unit = .ok plan) :
    ¬ (Update.apply path plan.classEdits).Fails project := by
  have inOrder := UnitPlan.inOrder_classEdits read
  rw [fails_apply_iff found fun edit member => (inOrder.isIn (List.mem_map_of_mem member)).2.1]
  exact not_not_intro (Edit.disjoint_of_inOrder inOrder)

/-- Behind the hand-overs only removals can fail. -/
theorem fails_removal_iff {config : Config} {path : Path} {plan : UnitPlan} {project : Project}
    {unit : SourceUnit} (found : project.unit? path = some unit) :
    Fails (do
      let unit ← Update.require path
      Update.apply path (removalEdits plan unit)
      let _ ← Project.alignImports config.library path
      return ()) project ↔
      ¬ Edit.Disjoint (removalEdits plan unit) ∨
        ∃ removed removals, Update.apply path (removalEdits plan unit) project = .ok () removed ∧
          DropsImports config.library path removed removals ∧ ¬ Edit.Disjoint removals := by
  rw [fails_require_bind_iff found, fails_bind_iff,
    fails_apply_iff found fun edit => isIn_of_mem_removalEdits]
  have aligns {removed : Project}
      (removes : Update.apply path (removalEdits plan unit) project = .ok () removed) :
      Fails (do let _ ← Project.alignImports config.library path; return ()) removed ↔
        ∃ removals, DropsImports config.library path removed removals ∧
          ¬ Edit.Disjoint removals := by
    obtain ⟨other, foundThen⟩ :=
      exists_unit?_of_paths_eq (sameBut_apply (apply_eq_ok_iff.1 removes)).paths_eq found
    rw [fails_bind_pure_iff, fails_alignImports_iff foundThen]
  refine or_congr_right ⟨?_, ?_⟩
  · rintro ⟨_, removed, removes, failed⟩
    obtain ⟨removals, drops, overlap⟩ := (aligns removes).1 failed
    exact ⟨removed, removals, removes, drops, overlap⟩
  · rintro ⟨removed, removals, removes, drops, overlap⟩
    exact ⟨(), removed, removes, (aligns removes).2 ⟨removals, drops, overlap⟩⟩

theorem fails_runUnitPlan_iff {config : Config} {pattern : Pattern} {path : Path}
    {project : Project} (normal : project.HasNormalPaths) {unit : SourceUnit}
    (found : project.unit? path = some unit) {plan : UnitPlan}
    (read : UnitPlan.ofUnit config pattern unit = .ok plan) :
    (runUnitPlan config path plan).Fails project ↔
      ∃ removals, plan.Removes config path project removals ∧ ¬ Edit.Disjoint removals := by
  rw [(runsLike_runUnitPlan config path plan).fails, fails_bind_iff,
    or_iff_right (not_fails_classEdits found read)]
  have samePaths {declared : Project}
      (declares : Update.apply path plan.classEdits project = .ok () declared) :
      SamePaths project declared :=
    (sameBut_apply (apply_eq_ok_iff.1 declares)).samePaths
  have handsOver {declared : Project}
      (declares : Update.apply path plan.classEdits project = .ok () declared) :
      (runEach (handOver config.library) (plan.handOvers config path)).Fails declared ↔
        ∃ removals, ComesTo (handOver config.library) (HandOver.DropsImports config.library)
          (plan.handOvers config path) declared removals ∧ ¬ Edit.Disjoint removals :=
    fails_runEach_handOver_iff (fun _ => UnitPlan.fits_of_mem_handOvers)
      ((samePaths declares).hasNormalPaths normal)
  -- a run that fails does so behind the classes: in a hand-over, or in what comes after all of them
  constructor
  · rintro ⟨_, declared, declares, failed⟩
    rcases fails_bind_iff.1 failed with failed | ⟨_, handed, ran, failed⟩
    · obtain ⟨removals, drops, overlap⟩ := (handsOver declares).1 failed
      exact ⟨removals, .behindHandOver declares drops, overlap⟩
    · obtain ⟨other, foundThen⟩ := exists_unit?_of_paths_eq
        ((samePaths declares).trans (samePaths_runEach_handOver ran)).paths_eq found
      rcases (fails_removal_iff foundThen).1 failed with
        overlap | ⟨removed, removals, removing, drops, overlap⟩
      · exact ⟨_, .declarations declares ran foundThen, overlap⟩
      · exact ⟨removals, .imports declares ran foundThen removing drops, overlap⟩
  · rintro ⟨removals, removing, overlap⟩
    cases removing with
    | behindHandOver declares drops =>
      exact ⟨(), _, declares, fails_bind_iff.2
        (.inl ((handsOver declares).2 ⟨removals, drops, overlap⟩))⟩
    | declarations declares ran foundThen =>
      exact ⟨(), _, declares, fails_bind_iff.2
        (.inr ⟨(), _, ran, (fails_removal_iff foundThen).2 (.inl overlap)⟩)⟩
    | imports declares ran foundThen removing drops =>
      exact ⟨(), _, declares, fails_bind_iff.2
        (.inr ⟨(), _, ran, (fails_removal_iff foundThen).2
          (.inr ⟨_, removals, removing, drops, overlap⟩)⟩)⟩

/-- What the migration does with the unit at its path. -/
theorem migrateActions_eq (config : Config) (pattern : Pattern) (path : Path) (project : Project) :
    migrateActions config pattern path project =
      match project.unit? path with
      | none => .ok (.skipped .unitAbsent) project
      | some unit =>
          match UnitPlan.ofUnit config pattern unit with
          | .error reason => .ok (.skipped reason) project
          | .ok plan => (do return .migrated (← Migration.lift (runUnitPlan config path plan)) :
              Migration _) project := by
  change (match project.unit? path with | none => _ | some unit => _ : Migration _) project = _
  cases project.unit? path with
  | none => rfl
  | some unit =>
    dsimp only
    cases UnitPlan.ofUnit config pattern unit <;> rfl

/-- The migration of a unit of actions skips it without a change, or carries out its plan; then it
fails exactly when it comes to removals of which two overlap. -/
theorem migrateActions_fails_iff {config : Config} {pattern : Pattern} {path : Path}
    {project : Project} (normal : project.HasNormalPaths) :
    (∀ reason result, migrateActions config pattern path project = .ok (.skipped reason) result →
      result = project) ∧
    ((∃ error left, migrateActions config pattern path project = .error error left) ↔
      ∃ unit plan removals, project.unit? path = some unit ∧
        UnitPlan.ofUnit config pattern unit = .ok plan ∧
        plan.Removes config path project removals ∧ ¬ Edit.Disjoint removals) := by
  rw [migrateActions_eq]
  cases found : project.unit? path with
  | none => simp
  | some unit =>
    cases read : UnitPlan.ofUnit config pattern unit with
    | error => simp [read]
    | ok plan =>
      simp only [read]
      refine ⟨fun reason result ran => ?_, ?_⟩
      · obtain ⟨_, _, _, answered⟩ := bind_eq_ok_iff.1 ran
        cases (pure_eq_ok_iff.1 answered).1
      · have fails : Fails (do return .migrated (← Migration.lift (runUnitPlan config path plan)) :
            Migration (Outcome (FactoryCatalog × ActionChanges))) project ↔
            ∃ removals, plan.Removes config path project removals ∧
              ¬ Edit.Disjoint removals := by
          rw [← fails_runUnitPlan_iff normal found read, fails_bind_pure_iff, Migration.lift,
            fails_withError_iff]
        refine fails.trans ⟨?_, ?_⟩
        · rintro ⟨removals, removing, overlap⟩
          exact ⟨unit, plan, removals, rfl, read, removing, overlap⟩
        · rintro ⟨other, otherPlan, removals, foundOther, readOther, removing, overlap⟩
          cases foundOther
          cases read.symm.trans readOther
          exact ⟨removals, removing, overlap⟩

/-- The enum and the alias stand on one line, with a blank between them. -/
def onOneLine : Project :=
  ofSources ⟨""⟩ {} [(⟨"a.ts"⟩, "class X\x7btype=E.L\x7denum E\x7bL='l'\x7d type XAction=X")]

theorem migrateActions_fails_iff_onOneLine :
    ∃ pattern, ({} : Config).aliasPattern? = some pattern ∧ onOneLine.HasNormalPaths ∧
      ((∃ error left, migrateActions {} pattern ⟨"a.ts"⟩ onOneLine = .error error left) ↔
        ∃ unit plan removals, onOneLine.unit? ⟨"a.ts"⟩ = some unit ∧
          UnitPlan.ofUnit {} pattern unit = .ok plan ∧
          plan.Removes {} ⟨"a.ts"⟩ onOneLine removals ∧ ¬ Edit.Disjoint removals) := by
  have normal : onOneLine.HasNormalPaths := hasNormalPaths_ofSources _ _ _
  cases compiled : ({} : Config).aliasPattern? with
  | none => exact absurd compiled (by decide +kernel)
  | some pattern => exact ⟨pattern, rfl, normal, (migrateActions_fails_iff normal).2⟩

/-- The removals of the enum and of the alias overlap in the blank, and so the migration ends with
the class replaced and the others still there. -/
theorem not_succeeds_onOneLine :
    (∀ unit ∈ onOneLine.units, Tree.hasErrors unit.text = false) ∧
      ∃ pattern error left, ({} : Config).aliasPattern? = some pattern ∧
        migrateActions {} pattern ⟨"a.ts"⟩ onOneLine = .error error left ∧
        error.message = "overlapping edits in a.ts: 28..42 and 41..56" ∧
        (left.unit? ⟨"a.ts"⟩).map SourceUnit.text =
          some "const x = createAction('l');enum E\x7bL='l'\x7d type XAction=X" := by
  refine ⟨by decide +kernel, ?_⟩
  have fails : ∃ pattern ∈ ({} : Config).aliasPattern?,
      failsWith (fun error left =>
        decide (error.message = "overlapping edits in a.ts: 28..42 and 41..56") &&
        decide ((left.unit? ⟨"a.ts"⟩).map SourceUnit.text =
          some "const x = createAction('l');enum E\x7bL='l'\x7d type XAction=X"))
        (migrateActions {} pattern ⟨"a.ts"⟩ onOneLine) = true := by
    decide +kernel
  obtain ⟨pattern, compiled, failed⟩ := fails
  obtain ⟨error, left, ran, both⟩ := exists_of_failsWith failed
  rw [Bool.and_eq_true, decide_eq_true_iff, decide_eq_true_iff] at both
  exact ⟨pattern, error, left, compiled, ran, both⟩

end CreatorMigration
