import CreatorMigration.Migration.Pipeline
import CreatorMigration.Proofs.Edit
import CreatorMigration.Proofs.Naming
import CreatorMigration.Proofs.Project.Changes

/-! # What the filters of a pipeline are left with

A pass over a property is repeated until a round over the text as it then stands gives no edits, or
until its rounds are used up. `FiltersSettled` is what an empty round of the filter pass means for
the text, and `Wrapping` is the way of a unit through its properties.
-/

namespace CreatorMigration

open Project Update

/-! ## One filter -/

/-- The text of a call writes bootstrap markers and names without dots for its arguments. -/
structure FilterSettled (config : Config) (unit : SourceUnit) (call callee : Node) : Prop where
  held : call.child? .callee = some callee
  written : unit.textOf call =
    unit.textOf callee ++ Pass.keptTypes config unit call ++ "(" ++
      Text.join ", " ((call.callArguments.map unit.textOf).map (Pass.filterArgument config)) ++ ")"
  plain : ∀ argument ∈ call.callArguments,
    Pass.isMarker config (Pass.filterArgument config (unit.textOf argument)) = true ∨
      IsUndotted (Pass.filterArgument config (unit.textOf argument))

theorem isMarker_or_isUndotted (config : Config) (argument : String) :
    Pass.isMarker config (Pass.filterArgument config argument) = true ∨
      IsUndotted (Pass.filterArgument config argument) := by
  unfold Pass.filterArgument
  cases marker : Pass.isMarker config argument with
  | true => exact .inl marker
  | false => exact .inr (isUndotted_factoryName argument)

theorem exists_callee_of_mem_callsOf {text name : String} {root call : Node}
    (member : call ∈ root.callsOf text name) : ∃ callee, call.child? .callee = some callee := by
  have named := (List.mem_filter.1 member).2
  rw [Node.calleeIs, Bool.and_eq_true] at named
  cases held : call.child? .callee with
  | some callee => exact ⟨callee, rfl⟩
  | none => simp [held] at named

theorem filterEdit?_eq_some_iff {config : Config} {unit : SourceUnit} {call : Node} {edit : Edit} :
    Pass.filterEdit? config unit call = some edit ↔
      ∃ callee, call.child? .callee = some callee ∧
        edit = ⟨call.span, unit.textOf callee ++ Pass.keptTypes config unit call ++ "(" ++
          Text.join ", " ((call.callArguments.map unit.textOf).map (Pass.filterArgument config)) ++
          ")"⟩ := by
  unfold Pass.filterEdit?
  cases call.child? .callee with
  | none => simp
  | some callee => simp [eq_comm]

/-- Where a round of the filter pass is empty the text of each filter is as the pass writes it. -/
theorem exists_filterSettled {config : Config} {unit : SourceUnit} {pipeline call : Node}
    (done : Pass.filterOperator.roundEdits config unit pipeline = [])
    (member : call ∈ pipeline.callsOf unit.text config.pipeline.filterOperator) :
    ∃ callee, FilterSettled config unit call callee := by
  obtain ⟨callee, held⟩ := exists_callee_of_mem_callsOf member
  have listed : (⟨call.span, unit.textOf callee ++ Pass.keptTypes config unit call ++ "(" ++
      Text.join ", " ((call.callArguments.map unit.textOf).map (Pass.filterArgument config)) ++
      ")"⟩ : Edit) ∈ Pass.filterEdits config unit pipeline :=
    List.mem_filterMap.2 ⟨call, member, filterEdit?_eq_some_iff.2 ⟨callee, held, rfl⟩⟩
  -- of edits that change the text at least one would be kept, so this one changes nothing
  have unchanged := List.filter_eq_nil_iff.1 (Edit.outermost_eq_nil_iff.1 done) _ listed
  refine ⟨callee, held, ?_, fun argument _ => isMarker_or_isUndotted config _⟩
  simpa [Edit.changes, SourceUnit.textOf, Node.textIn] using unchanged

/-! ## One pass -/

/-- A round of the pass over the first annotated property would give no edits. -/
def PassDone (config : Config) (path : Path) (pass : Pass) (project : Project) : Prop :=
  ∀ unit ∈ project.unit? path,
    ∀ pipeline ∈ (AnnotatedProperty.first? config unit).bind AnnotatedProperty.value?,
      pass.roundEdits config unit pipeline = []

theorem changesOnly_repeatPass (config : Config) (path : Path) (pass : Pass) (rounds : Nat) :
    ChangesOnly path (repeatPass config path pass rounds) := by
  induction rounds with
  | zero => exact changesOnly_pure 0
  | succ rounds inductionHypothesis =>
    refine (changesOnly_require path).bind fun unit => ?_
    cases (AnnotatedProperty.first? config unit).bind AnnotatedProperty.value? with
    | none => exact changesOnly_pure 0
    | some pipeline =>
      cases empty : (pass.roundEdits config unit pipeline).isEmpty with
      | true =>
        simp only [empty]
        exact changesOnly_pure 0
      | false =>
        simp only [empty]
        exact (changesOnly_apply _).bind fun _ => inductionHypothesis.bind fun _ =>
          changesOnly_pure _

/-- A number of rounds of a pass, each of which makes edits. -/
inductive Rounds (config : Config) (path : Path) (pass : Pass) : Nat → Project → Project → Prop where
  | none (project : Project) : Rounds config path pass 0 project project
  | more {count : Nat} {before between after : Project} {unit : SourceUnit} {pipeline : Node}
      (found : before.unit? path = some unit)
      (first : (AnnotatedProperty.first? config unit).bind AnnotatedProperty.value? = some pipeline)
      (nonempty : pass.roundEdits config unit pipeline ≠ [])
      (applied : before.apply path (pass.roundEdits config unit pipeline) = .ok between)
      (others : Rounds config path pass count between after) :
      Rounds config path pass (count + 1) before after

/-- A pass makes rounds until one of them is empty or their number is used up. -/
theorem exists_rounds {config : Config} {path : Path} {pass : Pass} {rounds count : Nat}
    {project result : Project}
    (ran : repeatPass config path pass rounds project = .ok count result) :
    ∃ made, Rounds config path pass made project result ∧
      (made = rounds ∨ made < rounds ∧ PassDone config path pass result) := by
  induction rounds generalizing project count with
  | zero =>
    obtain ⟨_, rfl⟩ := pure_eq_ok_iff.1 ran
    exact ⟨0, .none project, .inl rfl⟩
  -- the pass is done without a property or edits, and goes on over the project that the edits leave
  | succ rounds inductionHypothesis =>
    obtain ⟨unit, between, required, rest⟩ := bind_eq_ok_iff.1 ran
    obtain ⟨found, rfl⟩ := require_eq_ok_iff.1 required
    cases value : (AnnotatedProperty.first? config unit).bind AnnotatedProperty.value? with
    | none =>
      simp only [value] at rest
      obtain ⟨_, rfl⟩ := pure_eq_ok_iff.1 rest
      refine ⟨0, .none project, .inr ⟨Nat.succ_pos rounds, fun other foundOther pipeline held => ?_⟩⟩
      obtain rfl : unit = other := Option.some.inj (found.symm.trans foundOther)
      rw [value] at held
      cases held
    | some pipeline =>
      cases empty : (pass.roundEdits config unit pipeline).isEmpty with
      | true =>
        simp only [value, empty] at rest
        obtain ⟨_, rfl⟩ := pure_eq_ok_iff.1 rest
        refine ⟨0, .none project, .inr ⟨Nat.succ_pos rounds, fun other foundOther other held => ?_⟩⟩
        obtain rfl := Option.some.inj (found.symm.trans foundOther)
        obtain rfl := Option.some.inj (value.symm.trans held)
        exact List.isEmpty_iff.1 empty
      | false =>
        simp only [value, empty] at rest
        obtain ⟨_, _, applied, rest⟩ := bind_eq_ok_iff.1 rest
        obtain ⟨others, _, repeated, answered⟩ := bind_eq_ok_iff.1 rest
        obtain ⟨_, rfl⟩ := pure_eq_ok_iff.1 answered
        obtain ⟨made, madeRounds, ended⟩ := inductionHypothesis repeated
        have nonempty : pass.roundEdits config unit pipeline ≠ [] := fun none => by
          simp [none] at empty
        exact ⟨made + 1, .more found value nonempty (apply_eq_ok_iff.1 applied) madeRounds,
          ended.imp (congrArg Nat.succ) (And.imp_left Nat.succ_lt_succ)⟩

/-! ## All passes -/

/-- The filters of the first annotated property are settled. -/
def FiltersSettled (config : Config) (path : Path) (project : Project) : Prop :=
  ∀ unit ∈ project.unit? path,
    ∀ pipeline ∈ (AnnotatedProperty.first? config unit).bind AnnotatedProperty.value?,
      ∀ call ∈ pipeline.callsOf unit.text config.pipeline.filterOperator,
        ∃ callee, FilterSettled config unit call callee

/-- The passes that a property goes through; the filter pass ends with all filters settled, unless
it used up its rounds. -/
structure PassesRun (config : Config) (path : Path) (before after : Project) : Prop where
  stages : ∃ bounds filters branches renames rounds bounded filtered branched,
    repeatPass config path .aritySafety roundLimit before = .ok bounds bounded ∧
    repeatPass config path .filterOperator roundLimit bounded = .ok filters filtered ∧
    repeatPass config path .branchOperator roundLimit filtered = .ok branches branched ∧
    repeatPass config path .rename roundLimit branched = .ok renames after ∧
    Rounds config path .filterOperator rounds bounded filtered ∧
    (rounds = roundLimit ∨ FiltersSettled config path filtered)

theorem runPasses_cons_eq_ok {config : Config} {path : Path} {counts last : Table Pass Nat}
    {pass : Pass} {rest : List Pass} {project result : Project}
    (ran : runPasses config path counts (pass :: rest) project = .ok last result) :
    ∃ applied between others, repeatPass config path pass roundLimit project = .ok applied between ∧
      runPasses config path others rest between = .ok last result := by
  obtain ⟨applied, between, repeated, others⟩ := bind_eq_ok_iff.1 ran
  exact ⟨applied, between, _, repeated, others⟩

theorem passesRun_of_runPasses {config : Config} {path : Path} {counts last : Table Pass Nat}
    {project result : Project}
    (ran : runPasses config path counts Pass.all project = .ok last result) :
    PassesRun config path project result := by
  obtain ⟨_, _, _, bounding, ran⟩ := runPasses_cons_eq_ok ran
  obtain ⟨_, _, _, filtering, ran⟩ := runPasses_cons_eq_ok ran
  obtain ⟨_, _, _, branching, ran⟩ := runPasses_cons_eq_ok ran
  obtain ⟨_, _, _, rename, ran⟩ := runPasses_cons_eq_ok ran
  obtain ⟨_, rfl⟩ := pure_eq_ok_iff.1 ran
  obtain ⟨rounds, made, ended⟩ := exists_rounds filtering
  refine ⟨_, _, _, _, rounds, _, _, _, bounding, filtering, branching, rename, made,
    ended.imp id fun done => ?_⟩
  intro unit found pipeline held call member
  exact exists_filterSettled (done.2 unit found pipeline held) member

theorem changesOnly_runPasses (config : Config) (path : Path) (counts : Table Pass Nat)
    (passes : List Pass) : ChangesOnly path (runPasses config path counts passes) := by
  induction passes generalizing counts with
  | nil => exact changesOnly_pure counts
  | cons pass rest inductionHypothesis =>
    exact (changesOnly_repeatPass config path pass roundLimit).bind fun _ => inductionHypothesis _

/-! ## All properties -/

/-- The way of a unit through its annotated properties: each of them goes through the passes and is
then wrapped, which makes another one the first. The number is that of the wrapped properties. -/
inductive Wrapping (config : Config) (path : Path) : Nat → Project → Project → Prop where
  | stopped (project : Project) : Wrapping config path 0 project project
  | last {before after : Project} (passed : PassesRun config path before after)
      (unwrapped : wrapNext config path after = .ok false after) :
      Wrapping config path 0 before after
  | next {count : Nat} {before between wrapped after : Project}
      (passed : PassesRun config path before between)
      (wraps : wrapNext config path between = .ok true wrapped)
      (others : Wrapping config path count wrapped after) :
      Wrapping config path (count + 1) before after

theorem changesOnly_wrapNext (config : Config) (path : Path) :
    ChangesOnly path (wrapNext config path) := by
  refine (changesOnly_require path).bind fun unit => ?_
  cases (AnnotatedProperty.first? config unit).bind (AnnotatedProperty.wrapEdit? config unit) with
  | none => exact changesOnly_pure false
  | some edit => exact (changesOnly_apply [edit]).bind fun _ => changesOnly_pure true

theorem eq_of_wrapNext_eq_false {config : Config} {path : Path} {project result : Project}
    (ran : wrapNext config path project = .ok false result) : result = project := by
  obtain ⟨unit, _, required, rest⟩ := bind_eq_ok_iff.1 ran
  obtain ⟨_, rfl⟩ := require_eq_ok_iff.1 required
  cases made : (AnnotatedProperty.first? config unit).bind
      (AnnotatedProperty.wrapEdit? config unit) with
  | none =>
    simp only [made] at rest
    exact (pure_eq_ok_iff.1 rest).2.symm
  | some edit =>
    simp only [made] at rest
    obtain ⟨_, _, _, answered⟩ := bind_eq_ok_iff.1 rest
    cases (pure_eq_ok_iff.1 answered).1

theorem changesOnly_runPipelines (config : Config) (path : Path) (passes : List Pass)
    (wraps : Nat) (changes : PipelineChanges) :
    ChangesOnly path (runPipelines config path passes wraps changes) := by
  induction wraps generalizing changes with
  | zero => exact changesOnly_pure changes
  | succ wraps inductionHypothesis =>
    refine (changesOnly_runPasses config path _ passes).bind fun edits => ?_
    refine (changesOnly_wrapNext config path).bind fun wrapped => ?_
    cases wrapped with
    | true => exact inductionHypothesis _
    | false => exact changesOnly_pure _

theorem wrapping_of_runPipelines {config : Config} {path : Path} {wraps : Nat}
    {start changes : PipelineChanges} {project result : Project}
    (ran : runPipelines config path Pass.all wraps start project = .ok changes result) :
    ∃ wrapped, changes.properties = start.properties + wrapped ∧
      Wrapping config path wrapped project result := by
  induction wraps generalizing start project with
  | zero =>
    obtain ⟨rfl, rfl⟩ := pure_eq_ok_iff.1 ran
    exact ⟨0, rfl, .stopped project⟩
  | succ wraps inductionHypothesis =>
    obtain ⟨_, between, passes, rest⟩ := bind_eq_ok_iff.1 ran
    obtain ⟨wrapped, after, wrapped?, rest⟩ := bind_eq_ok_iff.1 rest
    have passed := passesRun_of_runPasses passes
    cases wrapped with
    -- the count that is passed on is one higher
    | true =>
      obtain ⟨count, counted, others⟩ := inductionHypothesis rest
      exact ⟨count + 1, by simp only [counted]; omega, .next passed wrapped? others⟩
    | false =>
      obtain ⟨rfl, rfl⟩ := pure_eq_ok_iff.1 rest
      obtain rfl := eq_of_wrapNext_eq_false wrapped?
      exact ⟨0, rfl, .last passed wrapped?⟩

/-! ## The migration -/

theorem changesOnly_migrateAnnotated {σ : Type} (config : Config) {path : Path}
    {work : SourceUnit → Update ProjectError σ} (only : ∀ unit, ChangesOnly path (work unit)) :
    ChangesOnly path (migrateAnnotated config path work) := by
  refine changesOnly_get.bind fun project => ?_
  cases project.unit? path with
  | none => exact changesOnly_pure _
  | some unit =>
    cases empty : (AnnotatedProperty.all config unit).isEmpty with
    | true =>
      simp only [empty]
      exact changesOnly_pure _
    | false =>
      cases faulty : (AnnotatedProperty.all config unit).find? fun property => !property.holdsCall with
      | some property =>
        simp only [empty, faulty]
        exact changesOnly_throw _
      | none =>
        simp only [empty, faulty]
        exact ((only unit).withError _).bind fun _ => changesOnly_pure _

theorem changesOnly_migratePipelines (config : Config) (passes : List Pass) (path : Path) :
    ChangesOnly path (migratePipelines config passes path) :=
  changesOnly_migrateAnnotated config fun _ =>
    (changesOnly_runPipelines config path passes _ _).bind fun _ =>
      (changesOnly_alignImports config.library path).bind fun _ => changesOnly_pure _

/-- A unit is migrated if all of its annotated properties hold calls; they are wrapped and then the
imports of the unit are aligned. -/
theorem exists_of_migratePipelines {config : Config} {passes : List Pass} {path : Path}
    {project result : Project} {changes : PipelineChanges}
    (ran : migratePipelines config passes path project = .ok (.migrated changes) result) :
    ∃ unit start wrapped difference, project.unit? path = some unit ∧
      (∀ property ∈ AnnotatedProperty.all config unit, property.holdsCall = true) ∧
      start.properties = 0 ∧
      runPipelines config path passes (wrapLimit unit) start project = .ok changes wrapped ∧
      alignImports config.library path wrapped = .ok difference result := by
  obtain ⟨_, _, got, rest⟩ := bind_eq_ok_iff.1 ran
  obtain ⟨rfl, rfl⟩ := get_eq_ok_iff.1 got
  cases found : project.unit? path with
  | none =>
    rw [found] at rest
    cases (pure_eq_ok_iff.1 rest).1
  | some unit =>
    cases empty : (AnnotatedProperty.all config unit).isEmpty with
    | true =>
      simp only [found, empty] at rest
      cases (pure_eq_ok_iff.1 rest).1
    | false =>
      -- a unit that passes both checks has annotated properties, all of which hold calls
      cases faulty : (AnnotatedProperty.all config unit).find? fun property => !property.holdsCall with
      | some property =>
        simp only [found, empty, faulty] at rest
        cases rest
      | none =>
        simp only [found, empty, faulty] at rest
        obtain ⟨_, _, finished, answered⟩ := bind_eq_ok_iff.1 rest
        obtain ⟨same, rfl⟩ := pure_eq_ok_iff.1 answered
        cases same
        obtain ⟨_, _, wrapped, rest⟩ := bind_eq_ok_iff.1 (withError_eq_ok_iff.1 finished)
        obtain ⟨difference, _, aligned, answered⟩ := bind_eq_ok_iff.1 rest
        obtain ⟨rfl, rfl⟩ := pure_eq_ok_iff.1 answered
        have calls : ∀ property ∈ AnnotatedProperty.all config unit, property.holdsCall = true :=
          fun property member => by simpa using List.find?_eq_none.1 faulty property member
        exact ⟨unit, _, _, difference, rfl, calls, rfl, wrapped, aligned⟩

/-- The properties of a migrated unit are wrapped one after the other, and then its imports are
aligned. -/
structure PipelinesWrapped (config : Config) (path : Path) (properties : Nat)
    (before after : Project) : Prop where
  stages : ∃ wrapped difference, Wrapping config path properties before wrapped ∧
    alignImports config.library path wrapped = .ok difference after

theorem pipelinesWrapped_of_migratePipelines {config : Config} {path : Path}
    {project result : Project} {changes : PipelineChanges}
    (ran : migratePipelines config Pass.all path project = .ok (.migrated changes) result) :
    PipelinesWrapped config path changes.properties project result := by
  obtain ⟨_, _, wrapped, difference, _, _, none, ranAll, aligned⟩ := exists_of_migratePipelines ran
  obtain ⟨count, counted, wrapping⟩ := wrapping_of_runPipelines ranAll
  rw [none, Nat.zero_add] at counted
  exact ⟨wrapped, difference, counted ▸ wrapping, aligned⟩

end CreatorMigration
