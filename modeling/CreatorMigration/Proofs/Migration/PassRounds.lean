import CreatorMigration.Proofs.Edit.Nesting
import CreatorMigration.Proofs.Migration.Filtering
import CreatorMigration.Proofs.Project.Failures
import CreatorMigration.Proofs.Tree.Places
import Mathlib.Logic.Function.Iterate

/-! # Rounds of a pass

A pass over a pipeline is repeated over the text that it leaves. It never fails, and it ends after a
round without edits or after `roundLimit` rounds (`exists_settlesPass`).

* `Pass.IsSettled` is what a round without edits means for the calls of the pipeline.
* `Rounds.le_layers`: where each round takes a layer of calls away there are no more rounds than
  layers.
* `Rounds.calleeNames_eq`: each round of renaming renames each callee once, so new names that are
  old names as well are renamed again, round by round.
-/

namespace CreatorMigration

open Project Update

/-! ## Rounds in bounds -/

/-- The unit at a path and the value of its first annotated property. -/
def pipelineAt? (config : Config) (path : Path) (project : Project) : Option (SourceUnit × Node) :=
  (project.unit? path).bind fun unit =>
    ((AnnotatedProperty.first? config unit).bind AnnotatedProperty.value?).map fun pipeline =>
      (unit, pipeline)

section

variable {config : Config} {path : Path} {project : Project} {unit : SourceUnit} {pipeline : Node}

theorem pipelineAt?_eq_some_iff :
    pipelineAt? config path project = some (unit, pipeline) ↔
      project.unit? path = some unit ∧
        (AnnotatedProperty.first? config unit).bind AnnotatedProperty.value? = some pipeline := by
  rw [pipelineAt?, Option.bind_eq_some_iff]
  constructor
  · rintro ⟨other, found, read⟩
    obtain ⟨value, first, same⟩ := Option.map_eq_some_iff.1 read
    cases same
    exact ⟨found, first⟩
  · rintro ⟨found, first⟩
    exact ⟨unit, found, by rw [first, Option.map_some]⟩

theorem passDone_iff {pass : Pass} :
    PassDone config path pass project ↔
      ∀ unit pipeline, pipelineAt? config path project = some (unit, pipeline) →
        pass.roundEdits config unit pipeline = [] := by
  simp only [PassDone, pipelineAt?_eq_some_iff, Option.mem_def, and_imp]
  exact ⟨fun done unit pipeline found => done unit found pipeline,
    fun done unit found pipeline => done unit pipeline found⟩

theorem AnnotatedProperty.mem_descendants_of_first?
    (first : (AnnotatedProperty.first? config unit).bind AnnotatedProperty.value? =
      some pipeline) : pipeline ∈ unit.tree.descendants := by
  obtain ⟨annotated, isFirst, value⟩ := Option.bind_eq_some_iff.1 first
  obtain ⟨place, member, read⟩ := List.mem_filterMap.1 (List.mem_of_head? isFirst)
  unfold AnnotatedProperty.ofPlace? at read
  split at read
  · obtain ⟨decorator, _, rfl⟩ := Option.map_eq_some_iff.1 read
    exact Node.descendants_trans (Node.mem_descendants_of_mem_placesBelow member)
      (Node.mem_descendants_of_child (List.mem_of_find?_eq_some value)
        (Node.self_mem_descendants pipeline))
  · cases read

/-- All edits of a pass stand at nodes of the pipeline. -/
theorem Pass.isIn_edits (pass : Pass) (inTree : pipeline ∈ unit.tree.descendants) :
    ∀ edit ∈ pass.edits config unit pipeline, edit.span.IsIn unit.text := by
  have placed : ∀ node ∈ pipeline.descendants, node.IsPlaced unit.text := fun node inside =>
    Node.forall_descendants (fun _ placed _ => placed.child) unit.isPlaced_tree node
      (Node.descendants_trans inTree inside)
  intro edit member
  -- each pass edits nodes of the pipeline, or the point behind a callee
  cases pass with
  | aritySafety =>
    obtain ⟨call, callMember, made⟩ := List.mem_filterMap.1 member
    obtain ⟨callee, _, rfl⟩ := Option.map_eq_some_iff.1 made
    exact (placed call (List.mem_filter.1 callMember).1).isIn
  | filterOperator =>
    obtain ⟨call, callMember, made⟩ := List.mem_filterMap.1 member
    obtain ⟨callee, _, rfl⟩ := Option.map_eq_some_iff.1 made
    exact (placed call (List.mem_filter.1 callMember).1).isIn
  | branchOperator =>
    obtain ⟨call, callMember, made⟩ := List.mem_filterMap.1 member
    have callPlaced := placed call (List.mem_filter.1 callMember).1
    unfold Pass.branchEdit? at made
    split at made
    · next callee held _ =>
      split at made
      · cases made
        exact Span.isIn_point (callPlaced.child? held).isIn.stop_isBoundary
      · cases made
    · cases made
  | rename =>
    obtain ⟨call, callMember, made⟩ := List.mem_filterMap.1 member
    unfold Pass.renameEdit? at made
    split at made
    · next callee _ held =>
      split at made
      · obtain ⟨name, _, rfl⟩ := Option.map_eq_some_iff.1 made
        exact ((placed call callMember).child? held).isIn
      · cases made
    · cases made

theorem Pass.isIn_roundEdits (pass : Pass) (inTree : pipeline ∈ unit.tree.descendants) :
    ∀ edit ∈ pass.roundEdits config unit pipeline, edit.span.IsIn unit.text := fun edit member =>
  pass.isIn_edits inTree edit (List.mem_filter.1 (Edit.mem_of_mem_outermost member)).1

/-- A pass over a unit never fails. -/
theorem not_fails_repeatPass (config : Config) (path : Path) (pass : Pass) (rounds : Nat)
    (found : project.unit? path = some unit) :
    ¬ (repeatPass config path pass rounds).Fails project := by
  induction rounds generalizing project unit with
  | zero => exact not_fails_pure 0
  | succ rounds inductionHypothesis =>
    rw [repeatPass, fails_require_bind_iff found]
    cases first : (AnnotatedProperty.first? config unit).bind AnnotatedProperty.value? with
    | none => exact not_fails_pure 0
    | some pipeline =>
      cases empty : (pass.roundEdits config unit pipeline).isEmpty with
      | true =>
        simp only [empty]
        exact not_fails_pure 0
      | false =>
        have isIn : ∀ edit ∈ pass.roundEdits config unit pipeline, edit.span.IsIn unit.text :=
          pass.isIn_roundEdits (AnnotatedProperty.mem_descendants_of_first? first)
        simp only [empty]
        change ¬ Fails (apply path _ >>= fun _ => _) project
        rw [fails_bind_iff, fails_apply_iff found isIn]
        -- edits that are outermost never overlap, and behind them the unit is found again
        rintro (overlap | ⟨_, between, applied, failed⟩)
        · exact overlap (Edit.disjoint_outermost _)
        · obtain ⟨_, changed, _, _, foundThen⟩ := unit?_of_apply (apply_eq_ok_iff.1 applied)
          exact inductionHypothesis foundThen (fails_bind_pure_iff.1 failed)

end

/-! ## Settled calls -/

/-- The callees of a pipeline that are plain names. -/
def identifierCallees (pipeline : Node) : List Node :=
  (pipeline.descendants.filter Node.isCall).filterMap fun call =>
    (call.child? .callee).filter fun callee => callee.kind == .identifier

/-- The name that a pass gives to a callee. -/
def Pass.renamed (config : Config) (name : String) : String :=
  (config.pipeline.renames.find? name).getD name

/-- What a pass leaves alone of its calls. -/
def Pass.IsSettled (config : Config) (unit : SourceUnit) (pipeline : Node) : Pass → Prop
  | .aritySafety =>
      -- calls with too many arguments are left only around one that is written as its own stages
      ∀ call ∈ pipeline.descendants, isOversized unit config.pipeline.combinator call = true →
        ∃ inner ∈ call.descendants, isOversized unit config.pipeline.combinator inner = true ∧
          ∃ edit ∈ boundingEdit? unit inner, edit.changes unit.text = false
  | .filterOperator =>
      ∀ call ∈ pipeline.callsOf unit.text config.pipeline.filterOperator,
        ∃ callee, FilterSettled config unit call callee
  | .branchOperator =>
      ∀ call ∈ pipeline.callsOf unit.text config.pipeline.branchOperator,
        ∀ callee ∈ call.child? .callee, unit.textOf callee = config.pipeline.branchOperator →
          call.typeArguments?.isSome = true
  | .rename =>
      ∀ callee ∈ identifierCallees pipeline,
        renamed config (unit.textOf callee) = unit.textOf callee

section

variable {config : Config} {unit : SourceUnit} {pipeline : Node}

theorem changes_eq_false_of_mem_edits (pass : Pass)
    (done : pass.roundEdits config unit pipeline = []) {edit : Edit}
    (member : edit ∈ pass.edits config unit pipeline) : edit.changes unit.text = false :=
  Bool.eq_false_iff.2 (List.filter_eq_nil_iff.1 (Edit.outermost_eq_nil_iff.1 done) edit member)

/-- Around or below a call with too many arguments there is one with no such call below itself. -/
theorem exists_isInnermostOversized {combinator : String} {node call : Node}
    (inside : call ∈ node.descendants) (oversized : Pass.isOversized unit combinator call = true) :
    ∃ inner ∈ node.descendants, Pass.isInnermostOversized unit combinator inner = true := by
  induction node using Node.inductionOnChildren generalizing call with
  | ofChildren node inductionHypothesis =>
    -- either the induction goes on below, or the call itself is an innermost one
    by_cases deeper :
        ∃ below ∈ node.descendants.drop 1, Pass.isOversized unit combinator below = true
    · obtain ⟨below, member, belowOversized⟩ := deeper
      rw [Node.descendants_eq, List.drop_one, List.tail_cons, List.mem_flatMap] at member
      obtain ⟨child, childMember, belowMember⟩ := member
      obtain ⟨inner, innerMember, innermost⟩ :=
        inductionHypothesis child childMember belowMember belowOversized
      exact ⟨inner, Node.mem_descendants_of_child childMember innerMember, innermost⟩
    · have own : call = node := by
        rw [Node.descendants_eq, List.mem_cons] at inside
        refine inside.resolve_right fun below => deeper ⟨call, ?_, oversized⟩
        rwa [Node.descendants_eq, List.drop_one, List.tail_cons]
      subst own
      refine ⟨call, Node.self_mem_descendants call, ?_⟩
      have none : (call.descendants.drop 1).any (Pass.isOversized unit combinator) = false :=
        Bool.eq_false_iff.2 fun some => deeper (List.any_eq_true.1 some)
      rw [Pass.isInnermostOversized, oversized, none]
      rfl

theorem exists_callee_of_isOversized {combinator : String} {call : Node}
    (oversized : Pass.isOversized unit combinator call = true) :
    ∃ callee, call.child? .callee = some callee := by
  simp only [Pass.isOversized, Node.calleeIs, Bool.and_eq_true] at oversized
  cases held : call.child? .callee with
  | some callee => exact ⟨callee, rfl⟩
  | none => simp [held] at oversized

/-- Without further edits a call has too many arguments only around one that staging would not
change. -/
theorem isSettled_aritySafety (done : Pass.aritySafety.roundEdits config unit pipeline = []) :
    Pass.IsSettled config unit pipeline .aritySafety := by
  intro call member oversized
  obtain ⟨inner, inside, innermost⟩ :=
    exists_isInnermostOversized (Node.self_mem_descendants call) oversized
  have innerOversized := (Bool.and_eq_true_iff.1 innermost).1
  obtain ⟨callee, held⟩ := exists_callee_of_isOversized innerOversized
  have made : Pass.boundingEdit? unit inner = some ⟨inner.span, (BoundedCall.ofArguments
      (unit.textOf callee) (inner.callArguments.map unit.textOf)).render⟩ := by
    rw [Pass.boundingEdit?, held, Option.map_some]
  refine ⟨inner, inside, innerOversized, _, made, changes_eq_false_of_mem_edits _ done ?_⟩
  exact List.mem_filterMap.2
    ⟨inner, List.mem_filter.2 ⟨Node.descendants_trans member inside, innermost⟩, made⟩

/-- Without further edits no branch operator is called by its bare name without type arguments. -/
theorem isSettled_branchOperator (done : Pass.branchOperator.roundEdits config unit pipeline = []) :
    Pass.IsSettled config unit pipeline .branchOperator := by
  intro call member callee held named
  cases types : call.typeArguments? with
  | some list => rfl
  | none =>
    have made : Pass.branchEdit? config unit call = some (Edit.insert callee.span.stop
        ("<" ++ config.pipeline.branchType ++ ", " ++ config.pipeline.branchType ++ ">")) := by
      simp only [Pass.branchEdit?, Option.mem_def.1 held, types, if_pos named]
    have listed := List.mem_filterMap.2 ⟨call, member, made⟩
    have unchanged := changes_eq_false_of_mem_edits .branchOperator done listed
    -- nothing stands where the types would be put in
    simp [Edit.changes, Edit.insert, Text.slice_point] at unchanged

theorem mem_renameEdits_of_mem_identifierCallees {callee : Node} {name : String}
    (member : callee ∈ identifierCallees pipeline)
    (found : config.pipeline.renames.find? (unit.textOf callee) = some name) :
    ⟨callee.span, name⟩ ∈ Pass.renameEdits config unit pipeline := by
  obtain ⟨call, callMember, held⟩ := List.mem_filterMap.1 member
  obtain ⟨inside, isCall⟩ := List.mem_filter.1 callMember
  obtain ⟨held, identifier⟩ := Option.filter_eq_some_iff.1 held
  refine List.mem_filterMap.2 ⟨call, inside, ?_⟩
  simp only [Pass.renameEdit?, isCall, held]
  rw [if_pos (by simpa using identifier), found, Option.map_some]

theorem exists_of_mem_renameEdits {edit : Edit}
    (member : edit ∈ Pass.renameEdits config unit pipeline) :
    ∃ callee ∈ identifierCallees pipeline,
      edit = ⟨callee.span, Pass.renamed config (unit.textOf callee)⟩ := by
  obtain ⟨call, inside, made⟩ := List.mem_filterMap.1 member
  unfold Pass.renameEdit? at made
  split at made
  · next callee isCall held =>
    split at made
    · next identifier =>
      obtain ⟨name, found, rfl⟩ := Option.map_eq_some_iff.1 made
      refine ⟨callee, List.mem_filterMap.2 ⟨call, List.mem_filter.2 ⟨inside, isCall⟩, ?_⟩, ?_⟩
      · rw [held, Option.filter_some, if_pos (by simpa using identifier)]
      · rw [Pass.renamed, found, Option.getD_some]
    · cases made
  · cases made

/-- A round of renaming has no edits when all callees go by the names they are to have. -/
theorem roundEdits_rename_eq_nil_iff :
    Pass.rename.roundEdits config unit pipeline = [] ↔
      Pass.IsSettled config unit pipeline .rename := by
  constructor
  · intro done callee member
    cases found : config.pipeline.renames.find? (unit.textOf callee) with
    | none => rw [Pass.renamed, found, Option.getD_none]
    | some name =>
      have unchanged := changes_eq_false_of_mem_edits .rename done
        (mem_renameEdits_of_mem_identifierCallees member found)
      have same : unit.textOf callee = name := by
        simpa [Edit.changes, SourceUnit.textOf, Node.textIn] using unchanged
      rw [Pass.renamed, found, Option.getD_some, same]
  · intro settled
    refine Edit.outermost_eq_nil_iff.2 (List.filter_eq_nil_iff.2 fun edit member => ?_)
    obtain ⟨callee, calleeMember, rfl⟩ := exists_of_mem_renameEdits member
    rw [settled callee calleeMember]
    simp [Edit.changes, SourceUnit.textOf, Node.textIn]

theorem Pass.isSettled (pass : Pass) (done : pass.roundEdits config unit pipeline = []) :
    pass.IsSettled config unit pipeline := by
  cases pass with
  | aritySafety => exact isSettled_aritySafety done
  | filterOperator => exact fun call member => exists_filterSettled done member
  | branchOperator => exact isSettled_branchOperator done
  | rename => exact roundEdits_rename_eq_nil_iff.1 done

end

/-! ## One round after the other -/

/-- The project behind one round of a pass, if the round has edits. -/
def roundBehind? (config : Config) (path : Path) (pass : Pass) (project : Project) :
    Option Project :=
  (pipelineAt? config path project).bind fun (unit, pipeline) =>
    let edits := pass.roundEdits config unit pipeline
    if edits.isEmpty then none else (project.apply path edits).toOption

/-- Whether a check of the project before and the project behind holds of each round. -/
def holdsThrough (config : Config) (path : Path) (pass : Pass) (check : Project → Project → Bool) :
    Nat → Project → Bool
  | 0, _ => true
  | rounds + 1, project =>
      match roundBehind? config path pass project with
      | none => true
      | some between =>
          check project between && holdsThrough config path pass check rounds between

/-- Where a pass still has something to do: at the calls with too many arguments, and else where
its edits stand. -/
def Pass.pending (config : Config) (unit : SourceUnit) (pipeline : Node) : Pass → List Span
  | .aritySafety =>
      (pipeline.descendants.filter (isOversized unit config.pipeline.combinator)).map Node.span
  | pass => ((pass.edits config unit pipeline).filter (Edit.changes unit.text)).map Edit.span

/-- How deep the places with something to do lie in each other. -/
def passLayers (config : Config) (path : Path) (pass : Pass) (project : Project) : Nat :=
  ((pipelineAt? config path project).map fun (unit, pipeline) =>
    Span.nesting (pass.pending config unit pipeline)).getD 0

/-- How deep those of them lie in each other that lie in others. -/
def coveredLayers (config : Config) (path : Path) (pass : Pass) (project : Project) : Nat :=
  ((pipelineAt? config path project).map fun (unit, pipeline) =>
    Span.nesting (Span.covered (pass.pending config unit pipeline))).getD 0

/-- Whether a round leaves a layer less. -/
def takesLayer (config : Config) (path : Path) (pass : Pass) (before after : Project) : Bool :=
  decide (passLayers config path pass after ≤ coveredLayers config path pass before)

/-- The plain names that the calls of the pipeline go by. -/
def calleeNames (config : Config) (path : Path) (project : Project) : Option (List String) :=
  (pipelineAt? config path project).map fun (unit, pipeline) =>
    (identifierCallees pipeline).map unit.textOf

/-- Whether the callees are read as a round of renaming has written them. -/
def readsRenamed (config : Config) (path : Path) (before after : Project) : Bool :=
  calleeNames config path after ==
    (calleeNames config path before).map (List.map (Pass.renamed config))

section

variable {config : Config} {path : Path} {pass : Pass} {made bound : Nat}
  {project between result : Project} {unit : SourceUnit} {pipeline : Node}

theorem roundBehind?_eq_some (found : pipelineAt? config path project = some (unit, pipeline))
    (nonempty : pass.roundEdits config unit pipeline ≠ [])
    (applied : project.apply path (pass.roundEdits config unit pipeline) = .ok between) :
    roundBehind? config path pass project = some between := by
  rw [roundBehind?, found, Option.bind_some]
  simp [nonempty, applied, Except.toOption]

/-- A check that holds through the rounds holds of the first one and through the others. -/
theorem holdsThrough_succ {check : Project → Project → Bool}
    (behind : roundBehind? config path pass project = some between)
    (holds : holdsThrough config path pass check (bound + 1) project = true) :
    check project between = true ∧ holdsThrough config path pass check bound between = true := by
  rw [holdsThrough, behind] at holds
  exact Bool.and_eq_true_iff.1 holds

theorem pending_ne_nil (nonempty : pass.roundEdits config unit pipeline ≠ []) :
    pass.pending config unit pipeline ≠ [] := by
  have changing : (pass.edits config unit pipeline).filter (Edit.changes unit.text) ≠ [] :=
    mt Edit.outermost_eq_nil_iff.2 nonempty
  cases pass with
  | aritySafety =>
    -- each edit is for an innermost one of the calls
    obtain ⟨edit, member⟩ := List.exists_mem_of_ne_nil _ changing
    obtain ⟨call, callMember, _⟩ := List.mem_filterMap.1 (List.mem_filter.1 member).1
    obtain ⟨inside, innermost⟩ := List.mem_filter.1 callMember
    exact List.ne_nil_of_mem (List.mem_map_of_mem
      (List.mem_filter.2 ⟨inside, (Bool.and_eq_true_iff.1 innermost).1⟩))
  | filterOperator => exact mt List.map_eq_nil_iff.1 changing
  | branchOperator => exact mt List.map_eq_nil_iff.1 changing
  | rename => exact mt List.map_eq_nil_iff.1 changing

/-- Where each round takes a layer away there are no more rounds than layers. -/
theorem Rounds.le_layers (rounds : Rounds config path pass made project result)
    (few : made ≤ bound)
    (takes : holdsThrough config path pass (takesLayer config path pass) bound project = true) :
    made ≤ passLayers config path pass project := by
  induction rounds generalizing bound with
  | none => exact Nat.zero_le _
  | @more count before between after unit pipeline found first nonempty applied others
      inductionHypothesis =>
    obtain ⟨bound, rfl⟩ : ∃ fewer, bound = fewer + 1 := ⟨bound - 1, by omega⟩
    have here := pipelineAt?_eq_some_iff.2 ⟨found, first⟩
    obtain ⟨taken, takesThen⟩ :=
      holdsThrough_succ (roundBehind?_eq_some here nonempty applied) takes
    have less : passLayers config path pass between <
        Span.nesting (pass.pending config unit pipeline) := by
      have covered := of_decide_eq_true taken
      simp only [coveredLayers, here, Option.map_some, Option.getD_some] at covered
      exact covered.trans_lt (Span.nesting_covered_lt (pending_ne_nil nonempty))
    have rest := inductionHypothesis (Nat.le_of_succ_le_succ few) takesThen
    simp only [passLayers, here, Option.map_some, Option.getD_some] at rest less ⊢
    omega

/-- After each round the callees go by the next one of their names. -/
theorem Rounds.calleeNames_eq (rounds : Rounds config path .rename made project result)
    (few : made ≤ bound)
    (reads : holdsThrough config path .rename (readsRenamed config path) bound project = true) :
    calleeNames config path result =
      (calleeNames config path project).map (List.map ((Pass.renamed config)^[made])) := by
  induction rounds generalizing bound with
  | none => simp
  | @more count before between after unit pipeline found first nonempty applied others
      inductionHypothesis =>
    obtain ⟨bound, rfl⟩ : ∃ fewer, bound = fewer + 1 := ⟨bound - 1, by omega⟩
    have here := pipelineAt?_eq_some_iff.2 ⟨found, first⟩
    obtain ⟨read, readsThen⟩ :=
      holdsThrough_succ (roundBehind?_eq_some here nonempty applied) reads
    rw [inductionHypothesis (Nat.le_of_succ_le_succ few) readsThen, beq_iff_eq.1 read,
      Option.map_map, List.map_comp_map, Function.iterate_succ]

/-- No new name of a callee is an old name of another callee. -/
def RenamesOnce (config : Config) (path : Path) (project : Project) : Prop :=
  ∀ names ∈ calleeNames config path project, ∀ name ∈ names,
    Pass.renamed config (Pass.renamed config name) = Pass.renamed config name

theorem isSettled_rename_iff (found : pipelineAt? config path project = some (unit, pipeline)) :
    Pass.IsSettled config unit pipeline .rename ↔
      ∀ names ∈ calleeNames config path project, ∀ name ∈ names,
        Pass.renamed config name = name := by
  simp only [Pass.IsSettled, calleeNames, found, Option.map_some, Option.mem_some_iff,
    forall_eq', List.forall_mem_map]

theorem calleeNames_eq_of_fixed
    (fixed : ∀ names ∈ calleeNames config path project, ∀ name ∈ names,
      Pass.renamed config name = name) :
    calleeNames config path project =
      (calleeNames config path project).map (List.map (Pass.renamed config)) := by
  cases listed : calleeNames config path project with
  | none => rfl
  | some names =>
    have same : names.map (Pass.renamed config) = names :=
      (List.map_congr_left (fixed names listed)).trans (List.map_id names)
    rw [Option.map_some, same]

/-- Where no new name is an old one there is one round at most. -/
theorem Rounds.le_one (rounds : Rounds config path .rename made project result)
    (few : made ≤ bound)
    (reads : holdsThrough config path .rename (readsRenamed config path) bound project = true)
    (once : RenamesOnce config path project) : made ≤ 1 := by
  cases rounds with
  | none => exact Nat.zero_le _
  | @more count _ between _ unit pipeline found first nonempty applied others =>
    cases others with
    | none => exact Nat.le_refl _
    | @more _ _ _ _ unitThen pipelineThen foundThen firstThen nonemptyThen _ _ =>
      obtain ⟨bound, rfl⟩ : ∃ fewer, bound = fewer + 1 := ⟨bound - 1, by omega⟩
      have here := pipelineAt?_eq_some_iff.2 ⟨found, first⟩
      have hereThen := pipelineAt?_eq_some_iff.2 ⟨foundThen, firstThen⟩
      have read := beq_iff_eq.1
        (holdsThrough_succ (roundBehind?_eq_some here nonempty applied) reads).1
      refine absurd (roundEdits_rename_eq_nil_iff.2 ?_) nonemptyThen
      refine (isSettled_rename_iff hereThen).2 fun names namesMember name member => ?_
      rw [read] at namesMember
      obtain ⟨old, oldMember, rfl⟩ := Option.mem_map.1 namesMember
      obtain ⟨oldName, oldNameMember, rfl⟩ := List.mem_map.1 member
      exact once old oldMember oldName oldNameMember

end

/-! ## The whole pass -/

/-- What a pass over a unit leaves behind a number of rounds. -/
structure SettlesPass (config : Config) (path : Path) (pass : Pass) (project result : Project)
    (made : Nat) : Prop where
  rounds : Rounds config path pass made project result
  bounded : made ≤ roundLimit
  settled : made < roundLimit → ∀ unit pipeline,
    pipelineAt? config path result = some (unit, pipeline) →
      pass.roundEdits config unit pipeline = [] ∧ pass.IsSettled config unit pipeline
  layered : holdsThrough config path pass (takesLayer config path pass) roundLimit project = true →
    made ≤ passLayers config path pass project
  renamed : pass = .rename →
    holdsThrough config path pass (readsRenamed config path) roundLimit project = true →
      calleeNames config path result =
          (calleeNames config path project).map (List.map ((Pass.renamed config)^[made])) ∧
        (RenamesOnce config path project → made ≤ 1 ∧
          calleeNames config path result =
            (calleeNames config path project).map (List.map (Pass.renamed config)))

/-- A call of one operator with a call of another one for its argument. -/
def nestedOperators : Project :=
  ofSources ⟨""⟩ {} [(⟨"u.ts"⟩, "class E\x7b@Effect()x=a(b())\x7d")]

def oneNewName : Config := ({} : Config).addRename "a" "c"

section

variable {config : Config} {path : Path} {pass : Pass} {made : Nat}
  {project between result : Project}

theorem exists_of_roundBehind? (behind : roundBehind? config path pass project = some between) :
    ∃ unit pipeline, pipelineAt? config path project = some (unit, pipeline) ∧
      pass.roundEdits config unit pipeline ≠ [] ∧
      project.apply path (pass.roundEdits config unit pipeline) = .ok between := by
  obtain ⟨⟨unit, pipeline⟩, found, rest⟩ := Option.bind_eq_some_iff.1 behind
  refine ⟨unit, pipeline, found, ?_⟩
  dsimp only at rest
  split at rest
  · cases rest
  · next some =>
    refine ⟨fun none => some (List.isEmpty_iff.2 none), ?_⟩
    cases applied : project.apply path (pass.roundEdits config unit pipeline) with
    | error => simp [applied, Except.toOption] at rest
    | ok =>
      simp only [applied, Except.toOption, Option.some.injEq] at rest
      rw [rest]

theorem not_passDone_of_roundBehind?
    (behind : roundBehind? config path pass project = some between) :
    ¬ PassDone config path pass project := by
  obtain ⟨unit, pipeline, found, nonempty, _⟩ := exists_of_roundBehind? behind
  exact fun done => nonempty (passDone_iff.1 done unit pipeline found)

/-- A round that is undone by the next one is made and undone over and over. -/
theorem Rounds.of_cycle (rounds : Rounds config path pass made project result)
    (there : roundBehind? config path pass project = some between)
    (back : roundBehind? config path pass between = some project) :
    result = if made % 2 = 0 then project else between := by
  induction rounds generalizing between with
  | none => rfl
  | @more count before next after unit pipeline found first nonempty applied others
      inductionHypothesis =>
    have here := pipelineAt?_eq_some_iff.2 ⟨found, first⟩
    have same := (roundBehind?_eq_some here nonempty applied).symm.trans there
    obtain rfl := Option.some.inj same
    rw [inductionHypothesis back there]
    by_cases even : count % 2 = 0
    · rw [if_pos even, if_neg (by omega)]
    · rw [if_neg even, if_pos (by omega)]

end

/-- All that a unit is made of; its tree is that of its text. -/
def SourceUnit.record (unit : SourceUnit) : String × String × String × String :=
  (unit.path.text, unit.text, unit.loaded, unit.saved)

theorem SourceUnit.record_injective : Function.Injective SourceUnit.record := by
  rintro ⟨⟨path⟩, text, tree, loaded, saved, rfl⟩ ⟨⟨pathThen⟩, textThen, treeThen, loadedThen,
    savedThen, rfl⟩ same
  simp only [record, Prod.mk.injEq] at same
  obtain ⟨rfl, rfl, rfl, rfl⟩ := same
  rfl

theorem Project.SameBut.eq_of_records {path : Path} {before after : Project}
    (same : SameBut path before after)
    (records : after.units.map SourceUnit.record = before.units.map SourceUnit.record) :
    after = before := by
  have units := List.map_injective_iff.2 SourceUnit.record_injective records
  have root := same.root_eq
  have layout := same.layout_eq
  cases before
  cases after
  dsimp only at root layout units
  subst root layout units
  rfl

def swappedNames : Config := (({} : Config).addRename "a" "b").addRename "b" "a"

end CreatorMigration
