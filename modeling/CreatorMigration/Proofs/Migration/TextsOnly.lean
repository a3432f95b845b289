import CreatorMigration.Migration.Run
import CreatorMigration.Proofs.Project.TextsOnly

/-! # Migrations of texts

Nothing that a migration does depends on what the units were when they were loaded or last written,
and no migration changes that.
-/

namespace CreatorMigration

open Project Update

/-! ## Replacing references -/

/-- The edits of a rule do not depend on the marks of a unit. -/
def ReplacementRule.IsBlind (rule : ReplacementRule) : Prop :=
  ∀ marking unit place, rule (SourceUnit.remarked unit marking) place = rule unit place

theorem isBlind_classRule (factory : Factory) : (classRule factory).IsBlind := fun _ _ _ => rfl

theorem isBlind_enumRule (catalog : FactoryCatalog) : (enumRule catalog).IsBlind :=
  fun _ _ _ => rfl

theorem isBlind_aliasRule (aggregate : AliasPlan) : (aliasRule aggregate).IsBlind :=
  fun _ _ _ => rfl

theorem batches_remarked {target : ReplacementTarget} {rule : ReplacementRule}
    (blind : rule.IsBlind) (marking : Marking) (project : Project) :
    target.batches rule (project.remarked marking) = target.batches rule project := by
  -- a rule is asked about a unit of the project, which is the one with other marks there
  have edits (unit : SourceUnit) (uses : List Span) :
      rule.edits (unit.remarked marking) uses = rule.edits unit uses := by
    have proposed : (fun use => rule (unit.remarked marking) ((unit.remarked marking).tree.nodeAt use)) =
        fun use => rule unit (unit.tree.nodeAt use) := funext fun use => blind marking unit _
    unfold ReplacementRule.edits
    rw [proposed]
    rfl
  simp only [ReplacementTarget.batches, references_remarked, units_remarked, List.map_map]
  congr 1
  refine List.map_congr_left fun unit _ => ?_
  simp only [Function.comp_apply, SourceUnit.path_remarked, edits]

theorem textsOnly_applyBatches (batches : List (Path × List Edit)) :
    TextsOnly (applyBatches batches) := by
  induction batches with
  | nil => exact textsOnly_pure ()
  | cons batch rest inductionHypothesis =>
    exact (textsOnly_apply batch.1 batch.2).bind fun _ => inductionHypothesis

theorem textsOnly_alignAll (table : ImportTable) (paths : List Path) :
    TextsOnly (alignAll table paths) := by
  induction paths with
  | nil => exact textsOnly_pure ()
  | cons path rest inductionHypothesis =>
    exact (textsOnly_alignImports table path).bind fun _ => inductionHypothesis

section

variable {rule : ReplacementRule} (blind : rule.IsBlind) (target : ReplacementTarget)

include blind

theorem textsOnly_replaceRound : TextsOnly (replaceRound target rule) :=
  textsOnly_get_bind (fun marking project => by rw [batches_remarked blind]) fun _ =>
    (textsOnly_applyBatches _).bind fun _ => textsOnly_pure _

theorem textsOnly_replaceRounds (rounds : Nat) : TextsOnly (replaceRounds target rule rounds) := by
  induction rounds with
  | zero => exact textsOnly_pure _
  | succ rounds inductionHypothesis =>
    refine (textsOnly_replaceRound blind target).bind fun round => ?_
    split
    · exact textsOnly_pure _
    · exact inductionHypothesis.bind fun _ => textsOnly_pure _

theorem textsOnly_replaceReferences (table : ImportTable) :
    TextsOnly (replaceReferences target table rule) :=
  (textsOnly_replaceRounds blind target roundLimit).bind fun _ =>
    (textsOnly_alignAll table _).bind fun _ => textsOnly_pure _

end

/-! ## Actions -/

theorem textsOnly_replaceClasses (config : Config) (path : Path) (entries : List FactoryPlan) :
    TextsOnly (replaceClasses config path entries) := by
  induction entries with
  | nil => exact textsOnly_pure _
  | cons entry rest inductionHypothesis =>
    exact (textsOnly_replaceReferences (isBlind_classRule entry.factory) _ _).bind fun _ =>
      inductionHypothesis.bind fun _ => textsOnly_pure _

theorem textsOnly_replaceAlias (config : Config) (path : Path) (aggregate : Option AliasPlan) :
    TextsOnly (replaceAlias config path aggregate) := by
  cases aggregate with
  | none => exact textsOnly_pure _
  | some aggregate => exact textsOnly_replaceReferences (isBlind_aliasRule aggregate) _ _

theorem textsOnly_runUnitPlan (config : Config) (path : Path) (plan : UnitPlan) :
    TextsOnly (runUnitPlan config path plan) :=
  (textsOnly_apply path _).bind fun _ => (textsOnly_replaceClasses config path _).bind fun _ =>
    (textsOnly_replaceReferences (isBlind_enumRule _) _ _).bind fun _ =>
      (textsOnly_replaceAlias config path _).bind fun _ =>
        textsOnly_require_bind (fun _ _ => rfl) fun _ => (textsOnly_apply path _).bind fun _ =>
          (textsOnly_alignImports config.library path).bind fun _ => textsOnly_pure _

theorem textsOnly_migrateActions (config : Config) (pattern : Pattern) (path : Path) :
    TextsOnly (migrateActions config pattern path) := by
  refine textsOnly_get_bind (fun marking project => ?_) fun project => ?_
  · rw [unit?_remarked]
    cases project.unit? path <;> rfl
  · cases project.unit? path with
    | none => exact textsOnly_pure _
    | some unit =>
      dsimp only
      cases UnitPlan.ofUnit config pattern unit with
      | error reason => exact textsOnly_pure _
      | ok plan =>
        exact ((textsOnly_runUnitPlan config path plan).withError _).bind fun _ =>
          textsOnly_pure _

/-! ## Reducers -/

theorem SwitchClause.readCases_remarked (unit : SourceUnit) (marking : Marking)
    (signature : ReducerSignature) (waiting : List String) (cases : List (String × List Node)) :
    readCases (unit.remarked marking) signature waiting cases =
      readCases unit signature waiting cases := by
  fun_induction readCases unit signature waiting cases with
  | case1 => rfl
  | case2 waiting label rest inductionHypothesis => exact inductionHypothesis
  | case3 waiting label statements rest nonempty inductionHypothesis =>
    rw [readCases, inductionHypothesis]
    · rfl
    · exact nonempty

theorem SwitchClause.ofSwitch_remarked (unit : SourceUnit) (marking : Marking)
    (signature : ReducerSignature) (switch : Node) :
    ofSwitch (unit.remarked marking) signature switch = ofSwitch unit signature switch := by
  unfold ofSwitch
  cases switch.child? .body with
  | none => rfl
  | some body => exact readCases_remarked unit marking signature [] _

theorem textsOnly_finishReducer (config : Config) (path : Path) (edits : List Edit) :
    TextsOnly (finishReducer config path edits) :=
  (textsOnly_apply path edits).bind fun _ => (textsOnly_importName path _ _ _).bind fun _ =>
    (textsOnly_alignImports config.library path).bind fun _ => textsOnly_pure _

theorem textsOnly_migrateReducer (config : Config) (path : Path) (types : Option ActionTypes) :
    TextsOnly (migrateReducer config path types) := by
  refine textsOnly_get_bind (fun marking project => ?_) fun project => ?_
  · rw [unit?_remarked]
    cases project.unit? path with
    | none => rfl
    | some unit =>
      simp only [Option.map_some, SwitchClause.ofSwitch_remarked]
      rfl
  · cases project.unit? path with
    | none => exact textsOnly_pure _
    | some unit =>
      dsimp only
      split
      · exact textsOnly_pure _
      · cases reducingFunction? config.naming unit with
        | none => exact textsOnly_pure _
        | some declaration =>
          dsimp only
          cases switchOf? declaration.node with
          | none => exact textsOnly_throw _
          | some switch =>
            exact ((textsOnly_finishReducer config path _).withError _).bind fun _ =>
              textsOnly_pure _

/-! ## Pipelines -/

theorem textsOnly_repeatPass (config : Config) (path : Path) (pass : Pass) (rounds : Nat) :
    TextsOnly (repeatPass config path pass rounds) := by
  induction rounds with
  | zero => exact textsOnly_pure _
  | succ rounds inductionHypothesis =>
    refine textsOnly_require_bind (fun _ _ => rfl) fun unit => ?_
    split
    · exact textsOnly_pure _
    · dsimp only
      split
      · exact textsOnly_pure _
      · exact (textsOnly_apply path _).bind fun _ => inductionHypothesis.bind fun _ =>
          textsOnly_pure _

theorem textsOnly_runPasses (config : Config) (path : Path) (counts : Table Pass Nat)
    (passes : List Pass) : TextsOnly (runPasses config path counts passes) := by
  induction passes generalizing counts with
  | nil => exact textsOnly_pure _
  | cons pass rest inductionHypothesis =>
    exact (textsOnly_repeatPass config path pass roundLimit).bind fun _ => inductionHypothesis _

theorem textsOnly_wrapNext (config : Config) (path : Path) : TextsOnly (wrapNext config path) := by
  refine textsOnly_require_bind (fun _ _ => rfl) fun unit => ?_
  split
  · exact textsOnly_pure _
  · exact (textsOnly_apply path _).bind fun _ => textsOnly_pure _

theorem textsOnly_runPipelines (config : Config) (path : Path) (passes : List Pass) (wraps : Nat)
    (changes : PipelineChanges) :
    TextsOnly (runPipelines config path passes wraps changes) := by
  induction wraps generalizing changes with
  | zero => exact textsOnly_pure _
  | succ wraps inductionHypothesis =>
    refine (textsOnly_runPasses config path _ passes).bind fun _ =>
      (textsOnly_wrapNext config path).bind fun wrapped => ?_
    split
    · exact inductionHypothesis _
    · exact textsOnly_pure _

theorem textsOnly_finishPipelines (config : Config) (passes : List Pass) (path : Path)
    (unit : SourceUnit) : TextsOnly (finishPipelines config passes path unit) :=
  (textsOnly_runPipelines config path passes _ _).bind fun _ =>
    (textsOnly_alignImports config.library path).bind fun _ => textsOnly_pure _

theorem textsOnly_migratePipelines (config : Config) (passes : List Pass) (path : Path) :
    TextsOnly (migratePipelines config passes path) := by
  refine textsOnly_get_bind (fun marking project => ?_) fun project => ?_
  · rw [unit?_remarked]
    cases project.unit? path <;> rfl
  · cases project.unit? path with
    | none => exact textsOnly_pure _
    | some unit =>
      dsimp only
      split
      · exact textsOnly_pure _
      · split
        · exact textsOnly_throw _
        · exact ((textsOnly_finishPipelines config passes path unit).withError _).bind fun _ =>
            textsOnly_pure _

end CreatorMigration
