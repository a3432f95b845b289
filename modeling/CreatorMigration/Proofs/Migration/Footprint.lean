import CreatorMigration.Proofs.Migration.Filtering
import CreatorMigration.Proofs.Migration.Registration
import CreatorMigration.Proofs.Migration.Removals
import CreatorMigration.Proofs.Project.References

/-! # Footprints

A migration of actions changes the unit that it migrates and the units that it lists; a replacement
of references changes those that it lists and that it may change at all. The migrations of reducers
and pipelines change one unit. All else stays as it was.
-/

namespace CreatorMigration

open Project Update

namespace Project

/-! ## Frames -/

/-- The projects have their units at the same paths, and those at paths that are not touched are the
same. -/
structure SameOutside (touched : Path → Prop) (before after : Project) : Prop where
  samePaths : SamePaths before after
  kept : ∀ unit ∈ before.units, ¬ touched unit.path → unit ∈ after.units

variable {touched wider : Path → Prop} {before between after project : Project}

namespace SameOutside

theorem refl (project : Project) : SameOutside touched project project :=
  ⟨.refl project, fun _ member _ => member⟩

theorem trans (first : SameOutside touched before between)
    (second : SameOutside touched between after) : SameOutside touched before after :=
  ⟨first.samePaths.trans second.samePaths, fun unit member apart =>
    second.kept unit (first.kept unit member apart) apart⟩

theorem mono (same : SameOutside touched before after)
    (covers : ∀ path ∈ before.paths, touched path → wider path) :
    SameOutside wider before after :=
  ⟨same.samePaths, fun unit member apart => same.kept unit member fun inside =>
    apart (covers unit.path (List.mem_map_of_mem member) inside)⟩

end SameOutside

theorem SameBut.sameOutside {path : Path} (same : SameBut path before after)
    (covers : ∀ other ∈ before.paths, (other == path.normalize) = true → touched other) :
    SameOutside touched before after :=
  ⟨same.samePaths, fun unit member apart => same.mem_of_mem member <| Bool.eq_false_iff.2
    fun own => apart (covers unit.path (List.mem_map_of_mem member) own)⟩

/-- Of the paths of the units only the path itself is found by it. -/
theorem HasNormalPaths.eq_of_beq (normal : project.HasNormalPaths) {path other : Path}
    (member : path ∈ project.paths) (otherMember : other ∈ project.paths)
    (same : (other == path.normalize) = true) : other = path := by
  refine eq_of_mem_paths otherMember member (Path.order_eq_of_beq (Path.beq_iff.2 ?_))
  rw [Path.beq_iff.1 same, normal path member]

end Project

section

variable {ε α β : Type} {project : Project}

/-- Steps that change one unit each touch the units that they are for. -/
theorem sameOutside_runEach {step : α → Update ε β} {place : α → Path}
    (only : ∀ item, ChangesOnly (place item) (step item)) {items : List α}
    (normal : project.HasNormalPaths) (listed : ∀ item ∈ items, place item ∈ project.paths) :
    SameOutside (· ∈ items.map place) project ((runEach step items).run project).2 := by
  induction items generalizing project with
  | nil => exact .refl project
  | cons first rest inductionHypothesis =>
    obtain ⟨firstListed, restListed⟩ := List.forall_mem_cons.1 listed
    refine relates_bind SameOutside.trans
      ((only first project).sameOutside fun other member own => ?_) ?_
    · rw [normal.eq_of_beq firstListed member own]
      exact List.mem_cons_self
    · intro answer between ran
      have same := ((only first).sameBut ran).samePaths
      refine (inductionHypothesis (same.hasNormalPaths normal) fun item member => ?_).mono
        fun path _ member => List.mem_cons_of_mem _ member
      rw [same.paths_eq]
      exact restListed item member

end

/-! ## Replacements -/

/-- The target may be replaced in the unit at a path. -/
def ReplacementTarget.Admits (target : ReplacementTarget) (path : Path) : Prop :=
  (path == target.declaring) = false ∧ target.skips path = false

/-- Every unit that differs is listed in the outcome. -/
structure Accounts (outcome : Replacements) (before after : Project) : Prop where
  listed : IsListOfUnits before outcome.units
  kept : SameOutside (· ∈ outcome.units) before after

/-- A replacement changes admitted units only, and if it succeeds it lists them. -/
structure ReplacesWithin (target : ReplacementTarget) (update : Update ProjectError Replacements)
    (project : Project) : Prop where
  kept : SameOutside target.Admits project (update.run project).2
  accounts : ∀ {outcome result}, update project = .ok outcome result →
    Accounts outcome project result ∧ ∀ path ∈ outcome.units, target.Admits path

section

variable {target : ReplacementTarget} {rule : ReplacementRule} {table : ImportTable}
  {project before between after : Project} {outcome other : Replacements}

theorem accounts_none (project : Project) : Accounts {} project project :=
  ⟨⟨by simp, .nil⟩, .refl project⟩

theorem IsListOfUnits.mem_union {base added : List Path} (first : IsListOfUnits project base)
    (second : IsListOfUnits project added) {path : Path} (member : path ∈ base ∨ path ∈ added) :
    path ∈ Ordered.union Path.order base added := by
  rcases member with member | member
  · exact Ordered.mem_union_of_mem_base Path.order added member
  · obtain ⟨same, listed, equal⟩ := Ordered.exists_mem_union Path.order base member
    rwa [eq_of_mem_paths (second.1 path member) ((first.union second).1 same listed) equal]

theorem Accounts.merge (first : Accounts outcome before between)
    (second : Accounts other between after) : Accounts (outcome.merge other) before after := by
  have listedThen := first.kept.samePaths.isListOfUnits second.listed
  refine ⟨first.listed.union listedThen, .trans (first.kept.mono ?_) (second.kept.mono ?_)⟩
  · exact fun path _ member => first.listed.mem_union listedThen (.inl member)
  · exact fun path _ member => first.listed.mem_union listedThen (.inr member)

theorem ReplacementRule.exists_use {unit : SourceUnit} {uses : List Span}
    (nonempty : rule.edits unit uses ≠ []) : ∃ use, use ∈ uses :=
  List.exists_mem_of_ne_nil uses fun none => nonempty (by rw [none]; rfl)

theorem mem_batches {batch : Path × List Edit} (member : batch ∈ target.batches rule project) :
    batch.1 ∈ project.paths ∧ target.Admits batch.1 ∧ batch.2 ≠ [] := by
  obtain ⟨placed, hasEdits⟩ := List.mem_filter.1 member
  have nonempty : batch.2 ≠ [] := by simpa using hasEdits
  obtain ⟨unit, unitMember, rfl⟩ := List.mem_map.1 placed
  refine ⟨List.mem_map_of_mem unitMember, ?_, nonempty⟩
  -- edits stand at uses, and a use is counted only in a unit that is admitted
  obtain ⟨_, spanMember⟩ := rule.exists_use nonempty
  obtain ⟨use, useMember, _⟩ := List.mem_map.1 spanMember
  obtain ⟨useMember, own⟩ := List.mem_filter.1 useMember
  obtain ⟨referred, included⟩ := List.mem_filter.1 useMember
  obtain ⟨user, userMember, _, _, _, _, rfl⟩ := mem_references.1 referred
  obtain rfl : user = unit := project.eq_of_path_beq userMember unitMember own
  simp only [ReplacementTarget.includes, Bool.and_eq_true, Bool.not_eq_true'] at included
  exact ⟨included.1.2, included.2⟩

theorem eq_nil_of_editCount_eq_zero {batches : List (Path × List Edit)}
    (nonempty : ∀ batch ∈ batches, batch.2 ≠ []) (none : editCount batches = 0) : batches = [] := by
  cases batches with
  | nil => rfl
  | cons first rest =>
    have hasEdits := List.length_pos_iff.2 (nonempty first List.mem_cons_self)
    simp only [editCount, List.foldr_cons] at none
    omega

theorem applyBatches_eq (batches : List (Path × List Edit)) :
    applyBatches batches = runEach (fun batch => Update.apply batch.1 batch.2) batches := by
  induction batches with
  | nil => rfl
  | cons first rest inductionHypothesis =>
    rw [applyBatches, runEach, inductionHypothesis]

/-- A round touches the units of its batches, whether it succeeds or not. -/
theorem sameOutside_replaceRound (target : ReplacementTarget) (rule : ReplacementRule)
    (normal : project.HasNormalPaths) :
    SameOutside (· ∈ (target.batches rule project).map Prod.fst) project
      ((replaceRound target rule).run project).2 := by
  have got : (get : Update ProjectError Project) project = .ok project project := rfl
  unfold replaceRound
  rw [run_bind_of_ok got]
  refine relates_bind SameOutside.trans ?_ fun _ between _ => .refl between
  rw [applyBatches_eq]
  exact sameOutside_runEach (fun batch => changesOnly_apply batch.2) normal fun batch member =>
    (mem_batches member).1

theorem admits_of_mem_batchPaths {path : Path}
    (member : path ∈ (target.batches rule project).map Prod.fst) : target.Admits path := by
  obtain ⟨batch, batchMember, rfl⟩ := List.mem_map.1 member
  exact (mem_batches batchMember).2.1

theorem replaceRound_outcome {round : Replacements}
    (ran : replaceRound target rule project = .ok round after) :
    round.units = (target.batches rule project).map Prod.fst ∧
      round.count = editCount (target.batches rule project) := by
  obtain ⟨_, _, got, rest⟩ := bind_eq_ok_iff.1 ran
  obtain ⟨rfl, rfl⟩ := get_eq_ok_iff.1 got
  obtain ⟨_, _, _, answered⟩ := bind_eq_ok_iff.1 rest
  obtain ⟨rfl, _⟩ := pure_eq_ok_iff.1 answered
  exact ⟨rfl, rfl⟩

theorem accounts_replaceRound {round : Replacements} (normal : project.HasNormalPaths)
    (ran : replaceRound target rule project = .ok round after) : Accounts round project after := by
  have kept := sameOutside_replaceRound target rule normal
  rw [run_of_ok ran, ← (replaceRound_outcome ran).1] at kept
  exact ⟨(replaceRound_eq_ok ran).2, kept⟩

/-- A round without edits has no batches, so nothing has to be listed for it. -/
theorem accounts_of_count_eq_zero {round : Replacements} (normal : project.HasNormalPaths)
    (ran : replaceRound target rule project = .ok round after) (none : round.count = 0) :
    Accounts {} project after := by
  obtain ⟨units, count⟩ := replaceRound_outcome ran
  have empty := eq_nil_of_editCount_eq_zero (fun batch member => (mem_batches member).2.2)
    (count.symm.trans none)
  refine ⟨⟨by simp, .nil⟩, (accounts_replaceRound normal ran).kept.mono fun path _ member => ?_⟩
  rwa [units, empty] at member

theorem replacesWithin_replaceRounds (target : ReplacementTarget) (rule : ReplacementRule)
    (normal : project.HasNormalPaths) (rounds : Nat) :
    ReplacesWithin target (replaceRounds target rule rounds) project := by
  induction rounds generalizing project with
  | zero =>
    refine ⟨.refl project, fun {outcome result} ran => ?_⟩
    obtain ⟨rfl, rfl⟩ := pure_eq_ok_iff.1 ran
    exact ⟨accounts_none project, by simp⟩
  | succ rounds inductionHypothesis =>
    -- a round changes the units of its batches only, and each of these is admitted
    have first := (sameOutside_replaceRound target rule normal).mono
      fun path _ member => admits_of_mem_batchPaths member
    constructor
    · refine relates_bind SameOutside.trans first fun round between ran => ?_
      split
      · exact .refl between
      · have normalThen := (replaceRound_eq_ok ran).1.hasNormalPaths normal
        exact relates_bind SameOutside.trans (inductionHypothesis normalThen).kept
          fun _ after _ => .refl after
    · intro outcome result ran
      obtain ⟨round, between, ranFirst, rest⟩ := bind_eq_ok_iff.1 ran
      have roundAccounts := accounts_replaceRound normal ranFirst
      split at rest
      · next none =>
        obtain ⟨rfl, rfl⟩ := pure_eq_ok_iff.1 rest
        exact ⟨accounts_of_count_eq_zero normal ranFirst none, by simp⟩
      · obtain ⟨others, _, ranOthers, answered⟩ := bind_eq_ok_iff.1 rest
        obtain ⟨rfl, rfl⟩ := pure_eq_ok_iff.1 answered
        have normalThen := roundAccounts.kept.samePaths.hasNormalPaths normal
        obtain ⟨othersAccount, othersAdmitted⟩ :=
          (inductionHypothesis normalThen).accounts ranOthers
        refine ⟨roundAccounts.merge othersAccount, fun path member => ?_⟩
        rcases Ordered.mem_of_mem_union Path.order _ _ member with member | member
        · rw [(replaceRound_outcome ranFirst).1] at member
          exact admits_of_mem_batchPaths member
        · exact othersAdmitted path member

theorem sameOutside_alignAll (table : ImportTable) {paths : List Path}
    (normal : project.HasNormalPaths) (listed : ∀ path ∈ paths, path ∈ project.paths) :
    SameOutside (· ∈ paths) project ((alignAll table paths).run project).2 := by
  have kept := sameOutside_runEach (fun path => changesOnly_alignImports table path) normal listed
  rwa [List.map_id', ← alignAll_eq] at kept

/-- The rounds stay within the admitted units, and the alignments behind them within those that the
rounds list. -/
theorem replacesWithin_replaceReferences (target : ReplacementTarget) (table : ImportTable)
    (rule : ReplacementRule) (normal : project.HasNormalPaths) :
    ReplacesWithin target (replaceReferences target table rule) project := by
  have rounds := replacesWithin_replaceRounds target rule normal roundLimit
  constructor
  -- what is kept is told of any end, of failing ones as well, and the account of those with an
  -- answer
  · refine relates_bind SameOutside.trans rounds.kept fun outcome rewritten ran => ?_
    obtain ⟨accounts, admitted⟩ := rounds.accounts ran
    have same := accounts.kept.samePaths
    have alignments := sameOutside_alignAll table (same.hasNormalPaths normal)
      fun path member => same.paths_eq ▸ accounts.listed.1 path member
    exact relates_bind SameOutside.trans (alignments.mono fun path _ => admitted path)
      fun _ after _ => .refl after
  · intro outcome result ran
    obtain ⟨_, rewritten, ranRounds, rest⟩ := bind_eq_ok_iff.1 ran
    obtain ⟨_, _, aligned, answered⟩ := bind_eq_ok_iff.1 rest
    obtain ⟨rfl, rfl⟩ := pure_eq_ok_iff.1 answered
    obtain ⟨accounts, admitted⟩ := rounds.accounts ranRounds
    have same := accounts.kept.samePaths
    have alignments := sameOutside_alignAll table (same.hasNormalPaths normal)
      fun path member => same.paths_eq ▸ accounts.listed.1 path member
    rw [run_of_ok aligned] at alignments
    exact ⟨⟨accounts.listed, accounts.kept.trans alignments⟩, admitted⟩

end

/-! ## Migrations -/

section

variable {config : Config} {path : Path} {project result : Project} {outcome : Replacements}

theorem accounts_replaceReferences {target : ReplacementTarget} {table : ImportTable}
    {rule : ReplacementRule} (normal : project.HasNormalPaths)
    (ran : replaceReferences target table rule project = .ok outcome result) :
    Accounts outcome project result :=
  ((replacesWithin_replaceReferences target table rule normal).accounts ran).1

theorem accounts_replaceClasses {entries : List FactoryPlan} (normal : project.HasNormalPaths)
    (ran : replaceClasses config path entries project = .ok outcome result) :
    Accounts outcome project result := by
  induction entries generalizing project outcome with
  | nil =>
    obtain ⟨rfl, rfl⟩ := pure_eq_ok_iff.1 ran
    exact accounts_none project
  | cons entry rest inductionHypothesis =>
    obtain ⟨first, between, ranFirst, others⟩ := bind_eq_ok_iff.1 ran
    obtain ⟨second, _, ranSecond, answered⟩ := bind_eq_ok_iff.1 others
    obtain ⟨rfl, rfl⟩ := pure_eq_ok_iff.1 answered
    have accounts := accounts_replaceReferences normal ranFirst
    exact accounts.merge
      (inductionHypothesis (accounts.kept.samePaths.hasNormalPaths normal) ranSecond)

theorem accounts_replaceAlias {aggregate : Option AliasPlan} (normal : project.HasNormalPaths)
    (ran : replaceAlias config path aggregate project = .ok outcome result) :
    Accounts outcome project result := by
  cases aggregate with
  | none =>
    obtain ⟨rfl, rfl⟩ := pure_eq_ok_iff.1 ran
    exact accounts_none project
  | some aggregate => exact accounts_replaceReferences normal ran

/-- The unit is changed first and last, and the units between are all listed. -/
theorem sameOutside_runUnitPlan {plan : UnitPlan} {catalog : FactoryCatalog}
    {changes : ActionChanges} (normal : project.HasNormalPaths)
    (normalPath : path.normalize.components = path.components)
    (ran : runUnitPlan config path plan project = .ok (catalog, changes) result) :
    SameOutside (fun other => (other == path) = true ∨ other ∈ changes.units) project result := by
  have own {before after : Project} (same : SameBut path before after) :
      SameOutside (fun other => (other == path) = true ∨ other ∈ changes.units) before after :=
    same.sameOutside fun other _ equal =>
      .inl (Path.beq_iff.2 ((Path.beq_iff.1 equal).trans normalPath))
  obtain ⟨_, declared, declares, rest⟩ := bind_eq_ok_iff.1 ran
  obtain ⟨classes, _, ranClasses, rest⟩ := bind_eq_ok_iff.1 rest
  obtain ⟨enum, _, ranEnum, rest⟩ := bind_eq_ok_iff.1 rest
  obtain ⟨aggregate, _, ranAlias, rest⟩ := bind_eq_ok_iff.1 rest
  obtain ⟨unit, _, required, rest⟩ := bind_eq_ok_iff.1 rest
  obtain ⟨_, rfl⟩ := require_eq_ok_iff.1 required
  obtain ⟨_, removed, removes, rest⟩ := bind_eq_ok_iff.1 rest
  obtain ⟨_, _, aligns, answered⟩ := bind_eq_ok_iff.1 rest
  obtain ⟨answer, rfl⟩ := pure_eq_ok_iff.1 answered
  obtain ⟨-, rfl⟩ := Prod.mk.inj answer
  have first := own (sameBut_apply (apply_eq_ok_iff.1 declares))
  have byClasses := accounts_replaceClasses (first.samePaths.hasNormalPaths normal) ranClasses
  have upToClasses := first.samePaths.trans byClasses.kept.samePaths
  have byEnum := accounts_replaceReferences (upToClasses.hasNormalPaths normal) ranEnum
  have upToEnum := upToClasses.trans byEnum.kept.samePaths
  have byAlias := accounts_replaceAlias (upToEnum.hasNormalPaths normal) ranAlias
  have middle := ((byClasses.merge byEnum).merge byAlias).kept
  -- of the units that are listed only the migrated one is left out of the answer
  refine ((first.trans (middle.mono fun other _ member => ?_)).trans
    (own (sameBut_apply (apply_eq_ok_iff.1 removes)))).trans
    (own ((changesOnly_alignImports config.library path).sameBut aligns))
  by_cases equal : (other == path) = true
  · exact .inl equal
  · exact .inr (List.mem_filter.2 ⟨member, by simpa using equal⟩)

/-- Which units stay as they are: behind a migration of actions all but the migrated one and those
that are listed, in the replacement of the enum those of reducers and pipelines, in any replacement
of references those that are not admitted, and in the migration of a reducer or of pipelines all but
the one at the path. A project that is made of sources or loaded from files has normal paths. -/
theorem sameOutside_migrations (normal : project.HasNormalPaths)
    (normalPath : path.normalize.components = path.components) (config : Config) :
    (∀ {pattern catalog changes result},
      migrateActions config pattern path project = .ok (.migrated (catalog, changes)) result →
        SameOutside (fun other => (other == path) = true ∨ other ∈ changes.units) project result) ∧
      (∀ enum catalog,
        SameOutside
          (fun other => StorePart.ofPath config.naming other ≠ .reducer ∧
            StorePart.ofPath config.naming other ≠ .pipeline)
          project ((replaceEnum config path enum catalog).run project).2) ∧
      (∀ name skips table rule,
        ReplacesWithin ⟨path, name, skips⟩ (replaceReferences ⟨path, name, skips⟩ table rule)
          project) ∧
      (∀ types,
        SameOutside (fun other => (other == path) = true) project
          ((migrateReducer config path types).run project).2) ∧
      ∀ passes,
        SameOutside (fun other => (other == path) = true) project
          ((migratePipelines config passes path).run project).2 := by
  -- a migration that changes one unit leaves all those with another path
  have own {α : Type} {migration : Migration α} (only : ChangesOnly path migration) :
      SameOutside (fun other => (other == path) = true) project (migration.run project).2 :=
    (only project).sameOutside fun other _ equal =>
      Path.beq_iff.2 ((Path.beq_iff.1 equal).trans normalPath)
  refine ⟨?_, fun enum catalog => ?_,
    fun name skips table rule => replacesWithin_replaceReferences _ table rule normal,
    fun types => own (changesOnly_migrateReducer config path types),
    fun passes => own (changesOnly_migratePipelines config passes path)⟩
  · intro pattern catalog changes result ran
    rw [migrateActions_eq] at ran
    split at ran
    · cases ran
    · split at ran
      · cases ran
      · obtain ⟨_, _, lifted, answered⟩ := bind_eq_ok_iff.1 ran
        obtain ⟨answer, rfl⟩ := pure_eq_ok_iff.1 answered
        cases answer
        exact sameOutside_runUnitPlan normal normalPath (withError_eq_ok_iff.1 lifted)
  · refine (replacesWithin_replaceReferences _ _ _ normal).kept.mono fun other _ admitted => ?_
    simpa using admitted.2

/-- A class is declared in the first unit and used in the second; the third one has its name from
elsewhere. -/
def threeUnits : Project :=
  ofSources ⟨""⟩ {}
    [(⟨"a.ts"⟩, "enum E\x7bK='k'\x7dexport class A\x7btype=E.K\x7d"),
     (⟨"b.ts"⟩, "import\x7bA\x7dfrom'./a';new A()"), (⟨"c.ts"⟩, "new A()")]

theorem sameOutside_migrations_threeUnits :
    ∃ catalog changes result,
      migrateActions {} .empty ⟨"a.ts"⟩ threeUnits = .ok (.migrated (catalog, changes)) result ∧
        changes.units.map Path.text = ["b.ts"] ∧
        SameOutside (fun other => (other == ⟨"a.ts"⟩) = true ∨ other ∈ changes.units) threeUnits
          result := by
  have succeeds : succeedsWith
      (fun outcome _ => match outcome with
        | .migrated (_, changes) => decide (changes.units.map Path.text = ["b.ts"])
        | .skipped _ => false)
      (migrateActions {} .empty ⟨"a.ts"⟩ threeUnits) = true := by
    decide +kernel
  obtain ⟨outcome, result, ran, listed⟩ := exists_of_succeedsWith succeeds
  cases outcome with
  | skipped => cases listed
  | migrated answer =>
    obtain ⟨catalog, changes⟩ := answer
    exact ⟨catalog, changes, result, ran, of_decide_eq_true listed,
      (sameOutside_migrations (hasNormalPaths_ofSources _ _ _) (by decide) {}).1 ran⟩

end

end CreatorMigration
