import CreatorMigration.Proofs.Migration.Replacement
import CreatorMigration.Proofs.Project.Failures

/-! # Rounds that cannot fail

The edits of a round of replacements stand at nodes of the trees of their units and keep clear of
each other, so a round never fails. `fails_replaceReferences_iff` says when the alignment of imports
behind the rounds does.
-/

namespace CreatorMigration

open Project Update

/-! ## Edits at nodes -/

/-- The edits that the rule gives are in the bounds of their units. -/
def ReplacementRule.Fits (rule : ReplacementRule) : Prop :=
  ∀ unit place edit, place.Fits unit.text → rule unit place = some edit → edit.span.IsIn unit.text

theorem Node.outermostUnion_mem (node : Node) (above : List Node) :
    node.outermostUnion above ∈ node :: above := by
  induction above generalizing node with
  | nil => exact List.mem_singleton.2 rfl
  | cons ancestor rest inductionHypothesis =>
    rw [outermostUnion]
    split
    · exact List.mem_cons_of_mem _ (inductionHypothesis ancestor)
    · exact List.mem_cons_self

theorem fits_classRule (factory : Factory) : (classRule factory).Fits := by
  rintro unit ⟨node, before, ancestors⟩ edit ⟨nodeFits, ancestorsFit⟩ ruled
  obtain ⟨site, found, rfl⟩ := Option.map_eq_some_iff.1 ruled
  unfold Site.ofPlace? at found
  cases ancestors with
  | nil => cases found
  | cons parent above =>
    dsimp only at found ancestorsFit
    split at found
    · cases found
      exact (ancestorsFit parent List.mem_cons_self).isIn
    · split at found
      · cases found
        exact (ancestorsFit _ (parent.outermostUnion_mem above)).isIn
      · split at found
        · cases found
          exact nodeFits.isIn
        · cases found

theorem fits_enumRule (catalog : FactoryCatalog) : (enumRule catalog).Fits := by
  intro unit place edit fits ruled
  unfold enumRule at ruled
  split at ruled
  · cases ruled
  · next access around =>
    split at ruled
    · obtain ⟨property, _, rfl⟩ := Option.map_eq_some_iff.1 ruled
      exact (fits.ancestors access (List.mem_of_head? around)).isIn
    · cases ruled

theorem fits_aliasRule (aggregate : AliasPlan) : (aliasRule aggregate).Fits := by
  intro unit place edit fits ruled
  cases ruled
  exact fits.node.isIn

/-! ## Rounds -/

/-- The batch can be applied to the unit that it is for. -/
def IsApplicable (project : Project) (batch : Path × List Edit) : Prop :=
  ∃ unit, project.unit? batch.1 = some unit ∧ (∀ edit ∈ batch.2, edit.span.IsIn unit.text) ∧
    Edit.Disjoint batch.2

theorem Project.HasNormalPaths.unit?_eq {project : Project} (normal : project.HasNormalPaths)
    {unit : SourceUnit} (member : unit ∈ project.units) : project.unit? unit.path = some unit := by
  refine project.unit?_eq_some_iff.2 ⟨member, Path.beq_iff.2 ?_⟩
  exact (normal unit.path (List.mem_map_of_mem member)).symm

theorem ReplacementRule.isIn_edits {rule : ReplacementRule} (fits : rule.Fits) {unit : SourceUnit}
    {uses : List Span} {edit : Edit} (member : edit ∈ rule.edits unit uses) :
    edit.span.IsIn unit.text := by
  have proposed := (List.mem_filter.1 (Edit.mem_of_mem_outermost member)).1
  obtain ⟨use, _, ruled⟩ := List.mem_filterMap.1 proposed
  exact fits unit _ edit (Node.fits_nodeAt unit.isPlaced_tree use) ruled

theorem isApplicable_batches {target : ReplacementTarget} {rule : ReplacementRule}
    (fits : rule.Fits) {project : Project} (normal : project.HasNormalPaths) :
    ∀ batch ∈ target.batches rule project, IsApplicable project batch := by
  intro batch member
  obtain ⟨unit, unitMember, rfl⟩ := List.mem_map.1 (List.mem_filter.1 member).1
  exact ⟨unit, normal.unit?_eq unitMember, fun edit => rule.isIn_edits fits,
    Edit.disjoint_outermost _⟩

theorem not_fails_applyBatches {batches : List (Path × List Edit)} {project : Project}
    (apart : (batches.map Prod.fst).Pairwise fun left right =>
      (left.normalize == right.normalize) = false)
    (applicable : ∀ batch ∈ batches, IsApplicable project batch) :
    ¬ (applyBatches batches).Fails project := by
  induction batches generalizing project with
  | nil => exact not_fails_pure ()
  | cons first rest inductionHypothesis =>
    obtain ⟨path, edits⟩ := first
    obtain ⟨firstApart, restApart⟩ := List.pairwise_cons.1 apart
    obtain ⟨⟨unit, found, isIn, disjoint⟩, restApplicable⟩ := List.forall_mem_cons.1 applicable
    rw [applyBatches, fails_bind_iff, fails_apply_iff found isIn]
    rintro (overlap | ⟨_, between, applied, failed⟩)
    · exact overlap disjoint
    -- the batches that are left are for other units, which the first one leaves alone
    · have same := sameBut_apply (apply_eq_ok_iff.1 applied)
      refine inductionHypothesis restApart (fun batch member => ?_) failed
      obtain ⟨other, foundOther, others⟩ := restApplicable batch member
      have different := firstApart batch.1 (List.mem_map_of_mem member)
      rw [Path.beq_comm] at different
      exact ⟨other, (same.unit?_eq different).trans foundOther, others⟩

theorem Project.SamePaths.hasNormalPaths {before after : Project} (same : SamePaths before after)
    (normal : before.HasNormalPaths) : after.HasNormalPaths := by
  intro path member
  rw [same.paths_eq] at member
  exact normal path member

theorem not_fails_replaceRound {target : ReplacementTarget} {rule : ReplacementRule}
    (fits : rule.Fits) {project : Project} (normal : project.HasNormalPaths) :
    ¬ (replaceRound target rule).Fails project := by
  unfold replaceRound
  rw [fails_get_bind_iff, fails_bind_pure_iff]
  exact not_fails_applyBatches
    (apart_of_isListOfUnits normal (isListOfUnits_batches target rule project))
    (isApplicable_batches fits normal)

/-- Rounds of a rule whose edits are in bounds never fail. -/
theorem not_fails_replaceRounds {target : ReplacementTarget} {rule : ReplacementRule}
    (fits : rule.Fits) {project : Project} (normal : project.HasNormalPaths) (rounds : Nat) :
    ¬ (replaceRounds target rule rounds).Fails project := by
  induction rounds generalizing project with
  | zero => exact not_fails_pure _
  | succ rounds inductionHypothesis =>
    rw [replaceRounds, fails_bind_iff]
    rintro (failed | ⟨round, between, ran, failed⟩)
    · exact not_fails_replaceRound fits normal failed
    · have same := (replaceRound_eq_ok ran).1
      split at failed
      · exact not_fails_pure _ failed
      · exact inductionHypothesis (same.hasNormalPaths normal) (fails_bind_pure_iff.1 failed)

/-! ## Alignment of the units that were changed -/

theorem samePaths_alignAll {table : ImportTable} {paths : List Path} {project result : Project}
    {answer : Unit} (ran : alignAll table paths project = .ok answer result) :
    SamePaths project result := by
  induction paths generalizing project with
  | nil =>
    obtain ⟨_, rfl⟩ := pure_eq_ok_iff.1 ran
    exact .refl project
  | cons first rest inductionHypothesis =>
    obtain ⟨_, _, aligned, others⟩ := alignAll_cons_eq_ok ran
    exact ((changesOnly_alignImports table first).sameBut aligned).samePaths.trans
      (inductionHypothesis others)

theorem alignAll_eq (table : ImportTable) (paths : List Path) :
    alignAll table paths = runEach (alignImports table) paths := by
  induction paths with
  | nil => rfl
  | cons first rest inductionHypothesis => rw [alignAll, runEach, inductionHypothesis]

/-- The removals of unused imports that the alignment of some units comes to. -/
def DropsImportsOf (table : ImportTable) : List Path → Project → List Edit → Prop :=
  ComesTo (alignImports table) (DropsImports table)

/-- An alignment of units of the project fails when the removals that it comes to overlap. -/
theorem fails_alignAll_iff {table : ImportTable} {paths : List Path} {project : Project}
    (normal : project.HasNormalPaths) (listed : ∀ path ∈ paths, path ∈ project.paths) :
    (alignAll table paths).Fails project ↔
      ∃ removals, DropsImportsOf table paths project removals ∧ ¬ Edit.Disjoint removals := by
  rw [alignAll_eq]
  refine fails_runEach_iff_comesTo fun {done path rest left} split aligned => ?_
  -- the unit whose turn it is is still there, whatever the alignments before it have changed
  have same := samePaths_alignAll ((alignAll_eq table done).symm ▸ aligned)
  have member : path ∈ left.paths := same.paths_eq ▸ listed path (by simp [split])
  obtain ⟨unit, unitMember, rfl⟩ := List.mem_map.1 member
  exact fails_alignImports_iff ((same.hasNormalPaths normal).unit?_eq unitMember) table

/-- The removals of unused imports that a replacement of references comes to behind its rounds. -/
def DropsImportsBehind (target : ReplacementTarget) (table : ImportTable) (rule : ReplacementRule)
    (project : Project) (removals : List Edit) : Prop :=
  ∃ outcome rewritten, replaceRounds target rule roundLimit project = .ok outcome rewritten ∧
    DropsImportsOf table outcome.units rewritten removals

theorem samePaths_replaceReferences {target : ReplacementTarget} {table : ImportTable}
    {rule : ReplacementRule} {project result : Project} {outcome : Replacements}
    (ran : replaceReferences target table rule project = .ok outcome result) :
    SamePaths project result := by
  obtain ⟨_, rewritten, rounds, rest⟩ := bind_eq_ok_iff.1 ran
  obtain ⟨_, _, aligned, rest⟩ := bind_eq_ok_iff.1 rest
  obtain ⟨rfl, rfl⟩ := pure_eq_ok_iff.1 rest
  exact (replaceRounds_eq_ok rounds).1.trans (samePaths_alignAll aligned)

/-- A replacement of references fails when removals of imports behind its rounds overlap. -/
theorem fails_replaceReferences_iff {target : ReplacementTarget} {table : ImportTable}
    {rule : ReplacementRule} (fits : rule.Fits) {project : Project}
    (normal : project.HasNormalPaths) :
    (replaceReferences target table rule).Fails project ↔
      ∃ removals, DropsImportsBehind target table rule project removals ∧
        ¬ Edit.Disjoint removals := by
  unfold replaceReferences
  rw [fails_bind_iff, or_iff_right (not_fails_replaceRounds fits normal roundLimit)]
  have aligns {outcome : Replacements} {rewritten : Project}
      (rounds : replaceRounds target rule roundLimit project = .ok outcome rewritten) :
      Fails (do alignAll table outcome.units; return outcome) rewritten ↔
        ∃ removals, DropsImportsOf table outcome.units rewritten removals ∧
          ¬ Edit.Disjoint removals := by
    obtain ⟨same, listed⟩ := replaceRounds_eq_ok rounds
    rw [fails_bind_pure_iff, fails_alignAll_iff (same.hasNormalPaths normal) fun path member =>
      same.paths_eq ▸ listed.1 path member]
  constructor
  · rintro ⟨outcome, rewritten, rounds, failed⟩
    obtain ⟨removals, drops, overlap⟩ := (aligns rounds).1 failed
    exact ⟨removals, ⟨outcome, rewritten, rounds, drops⟩, overlap⟩
  · rintro ⟨removals, ⟨outcome, rewritten, rounds, drops⟩, overlap⟩
    exact ⟨outcome, rewritten, rounds, (aligns rounds).2 ⟨removals, drops, overlap⟩⟩

end CreatorMigration
