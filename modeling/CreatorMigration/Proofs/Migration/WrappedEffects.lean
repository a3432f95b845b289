import CreatorMigration.Proofs.Migration.EffectFields
import CreatorMigration.Proofs.Migration.PassRounds
import CreatorMigration.Proofs.Tree.NodeAt

/-! # Effects that are wrapped

The migration of a unit wraps its annotated properties from the first one on, and looks for the
first one anew in each text that it leaves.

* `EffectRun` lists the effects that are written until no field is annotated.
* `exists_effectRun`: where the texts are read as they are written the wrapping ends by itself.
* `EffectRun.fields_eq` says what becomes of all fields of the unit.
* `wrapsEffects_of_readsAsWritten` puts these together.
-/

namespace CreatorMigration

open Project Update

/-! ## Texts that are read as they are written -/

section

variable (config : Config) (path : Path) (project before after : Project)

/-- The fields of the unit at a path. -/
def fieldsAt : List FieldRecord := ((project.unit? path).map (SourceUnit.fields config)).getD []

/-- For each field the effect that it holds. -/
def effectsAt : List (Option EffectRecord) :=
  ((project.unit? path).map fun unit =>
    unit.fieldPlaces.map (EffectRecord.ofPlace? config unit)).getD []

/-- For each field the effect that it is to hold. -/
def effectsDueAt : List (Option EffectRecord) :=
  ((project.unit? path).map fun unit =>
    unit.fieldPlaces.map (EffectRecord.due? config unit)).getD []

def wrapLimitAt : Nat := ((project.unit? path).map wrapLimit).getD 0

/-- Where the first annotated field stands among the fields. -/
def firstAnnotatedAt : Nat := (fieldsAt config path project).findIdx (FieldRecord.isAnnotated config)

/-- The fields are read as before. -/
def KeepsFields : Prop :=
  fieldsAt config path after = fieldsAt config path before ∧
    wrapLimitAt path after ≤ wrapLimitAt path before

/-- The first annotated field is read as the effect that it was to hold, the other fields are read as
before, and there is a decorator less. -/
def ReadsEffect : Prop :=
  fieldsAt config path after =
      (fieldsAt config path before).modify (firstAnnotatedAt config path before)
        (FieldRecord.wrapped config) ∧
    (effectsAt config path after)[firstAnnotatedAt config path before]? =
      (effectsDueAt config path before)[firstAnnotatedAt config path before]? ∧
    wrapLimitAt path after < wrapLimitAt path before

instance : Decidable (KeepsFields config path before after) := inferInstanceAs (Decidable (_ ∧ _))

instance : Decidable (ReadsEffect config path before after) :=
  inferInstanceAs (Decidable (_ ∧ _ ∧ _))

def behindPasses (passes : List Pass) : Project := ((runPasses config path [] passes).run project).2

def behindWrap? : Option Project :=
  match (wrapNext config path).run project with
  | (.ok true, wrapped) => some wrapped
  | _ => none

def behindAlignment : Project := ((alignImports config.library path).run project).2

end

/-- Whether the texts of the given number of turns are read as they are written: passes and the
alignment of imports keep the fields, and each effect is read as such. -/
def readsAsWritten (config : Config) (path : Path) (passes : List Pass) : Nat → Project → Bool
  | 0, _ => true
  | turns + 1, project =>
      let between := behindPasses config path project passes
      decide (KeepsFields config path project between) &&
        match behindWrap? config path between with
        | none => decide (KeepsFields config path between (behindAlignment config path between))
        | some wrapped =>
            decide (ReadsEffect config path between wrapped) &&
              readsAsWritten config path passes turns wrapped

section

variable {config : Config} {path : Path} {passes : List Pass} {project between wrapped : Project}

/-- What the passes leave does not depend on the edits that were counted before. -/
theorem runPasses_of_counts {counts last : Table Pass Nat}
    (ran : runPasses config path counts passes project = .ok last between)
    (others : Table Pass Nat) :
    ∃ lastThen, runPasses config path others passes project = .ok lastThen between := by
  induction passes generalizing counts others project with
  | nil =>
    obtain ⟨_, rfl⟩ := pure_eq_ok_iff.1 ran
    exact ⟨others, rfl⟩
  | cons pass rest inductionHypothesis =>
    obtain ⟨applied, left, _, repeated, ranRest⟩ := runPasses_cons_eq_ok ran
    obtain ⟨lastThen, ranThen⟩ := inductionHypothesis ranRest _
    exact ⟨lastThen, bind_eq_ok_iff.2 ⟨applied, left, repeated, ranThen⟩⟩

theorem behindPasses_eq {counts last : Table Pass Nat}
    (ran : runPasses config path counts passes project = .ok last between) :
    behindPasses config path project passes = between := by
  obtain ⟨_, ranThen⟩ := runPasses_of_counts ran []
  rw [behindPasses, run_of_ok ranThen]

theorem behindWrap?_eq {wraps : Bool} (ran : wrapNext config path between = .ok wraps wrapped) :
    behindWrap? config path between = if wraps then some wrapped else none := by
  rw [behindWrap?, run_of_ok ran]
  cases wraps <;> rfl

/-- A turn wraps the first annotated property, or it finds none that it can wrap. -/
theorem wrapNext_cases {wraps : Bool} (ran : wrapNext config path between = .ok wraps wrapped) :
    ∃ unit, between.unit? path = some unit ∧
      match (AnnotatedProperty.first? config unit).bind
        (AnnotatedProperty.wrapEdit? config unit) with
      | none => wraps = false ∧ wrapped = between
      | some edit => wraps = true ∧ between.apply path [edit] = .ok wrapped := by
  obtain ⟨unit, _, required, rest⟩ := bind_eq_ok_iff.1 ran
  obtain ⟨found, rfl⟩ := require_eq_ok_iff.1 required
  refine ⟨unit, found, ?_⟩
  cases made : (AnnotatedProperty.first? config unit).bind
      (AnnotatedProperty.wrapEdit? config unit) with
  | none =>
    simp only [made] at rest
    obtain ⟨same, rfl⟩ := pure_eq_ok_iff.1 rest
    exact ⟨same.symm, rfl⟩
  | some edit =>
    simp only [made] at rest
    obtain ⟨_, _, applied, answered⟩ := bind_eq_ok_iff.1 rest
    obtain ⟨same, rfl⟩ := pure_eq_ok_iff.1 answered
    exact ⟨same.symm, apply_eq_ok_iff.1 applied⟩

end

/-! ## Work that cannot fail -/

section

variable {config : Config} {path : Path} {project : Project} {unit : SourceUnit}

/-- A decorator stands in front of its member or in it. -/
theorem isPlaced_of_mem_decorators {place : Place} (member : place ∈ unit.tree.places)
    {decorator : Node} (decorates : decorator ∈ place.decorators) :
    place.node.IsPlaced unit.text ∧ decorator.IsPlaced unit.text ∧
      decorator.span.stop ≤ place.node.span.stop := by
  have placed : place.node.IsPlaced unit.text :=
    Node.forall_descendants (fun _ placed _ => placed.child) unit.isPlaced_tree _
      (Node.mem_descendants_of_mem_placesBelow member)
  refine ⟨placed, ?_⟩
  rcases List.mem_append.1 decorates with preceding | own
  · have sibling : decorator ∈ place.before :=
      (List.takeWhile_subset _) (List.mem_filter.1 (List.mem_reverse.1 preceding)).1
    have inFront := unit.isPlaced_tree.before_of_mem_placesBelow (by simp) member decorator sibling
    exact ⟨inFront.1, inFront.2.trans placed.isIn.ordered⟩
  · have child := (List.mem_filter.1 (List.mem_filter.1 own).1).1
    exact ⟨placed.child child, (placed.children.inOrder.isIn (List.mem_map_of_mem child)).2.2⟩

theorem AnnotatedProperty.isIn_wrapEdit? {annotated : AnnotatedProperty} {edit : Edit}
    (member : annotated ∈ AnnotatedProperty.all config unit)
    (made : annotated.wrapEdit? config unit = some edit) : edit.span.IsIn unit.text := by
  obtain ⟨place, placeMember, read⟩ := List.mem_filterMap.1 member
  unfold ofPlace? at read
  split at read
  · obtain ⟨decorator, found, rfl⟩ := Option.map_eq_some_iff.1 read
    obtain ⟨placed, decoratorPlaced, inOrder⟩ :=
      isPlaced_of_mem_decorators placeMember (List.mem_of_find?_eq_some found)
    unfold wrapEdit? at made
    split at made
    · cases made
      exact decoratorPlaced.isIn.through placed.isIn inOrder
    · cases made
  · cases read

theorem not_fails_wrapNext (found : project.unit? path = some unit) :
    ¬ (wrapNext config path).Fails project := by
  rw [wrapNext, fails_require_bind_iff found]
  cases made : (AnnotatedProperty.first? config unit).bind
      (AnnotatedProperty.wrapEdit? config unit) with
  | none => exact not_fails_pure false
  | some edit =>
    obtain ⟨annotated, first, wraps⟩ := Option.bind_eq_some_iff.1 made
    have isIn := AnnotatedProperty.isIn_wrapEdit? (List.mem_of_head? first) wraps
    change ¬ Fails (apply path [edit] >>= fun _ => pure true) project
    rw [fails_bind_pure_iff, fails_apply_iff found (List.forall_mem_singleton.2 isIn)]
    exact not_not_intro (List.pairwise_singleton _ _)

theorem not_fails_runPasses (counts : Table Pass Nat) (passes : List Pass)
    (found : project.unit? path = some unit) :
    ¬ (runPasses config path counts passes).Fails project := by
  induction passes generalizing counts project unit with
  | nil => exact not_fails_pure counts
  | cons pass rest inductionHypothesis =>
    rw [runPasses, fails_bind_iff]
    rintro (failed | ⟨applied, between, ran, failed⟩)
    · exact not_fails_repeatPass config path pass roundLimit found failed
    · obtain ⟨changed, foundThen⟩ :=
        exists_unit?_of_paths_eq
          ((changesOnly_repeatPass config path pass roundLimit).sameBut ran).paths_eq found
      exact inductionHypothesis _ foundThen failed

/-- The passes and the wrapping of a unit never fail. -/
theorem not_fails_runPipelines (passes : List Pass) (turns : Nat) (start : PipelineChanges)
    (found : project.unit? path = some unit) :
    ¬ (runPipelines config path passes turns start).Fails project := by
  induction turns generalizing start project unit with
  | zero => exact not_fails_pure start
  | succ turns inductionHypothesis =>
    rw [runPipelines, fails_bind_iff]
    rintro (failed | ⟨counts, between, ran, failed⟩)
    · exact not_fails_runPasses _ passes found failed
    obtain ⟨_, foundThen⟩ :=
      exists_unit?_of_paths_eq ((changesOnly_runPasses config path _ passes).sameBut ran).paths_eq found
    rcases fails_bind_iff.1 failed with failed | ⟨wraps, wrapped, turn, failed⟩
    · exact not_fails_wrapNext foundThen failed
    obtain ⟨_, foundLast⟩ :=
      exists_unit?_of_paths_eq ((changesOnly_wrapNext config path).sameBut turn).paths_eq foundThen
    cases wraps with
    | true => exact inductionHypothesis _ foundLast failed
    | false => exact not_fails_pure _ failed

end

/-! ## One effect after the other -/

/-- The first annotated property is replaced by an effect, and it is read as the effect. -/
structure WrapsFirst (config : Config) (path : Path) (effect : EffectRecord)
    (before after : Project) : Prop where
  due : (effectsDueAt config path before)[firstAnnotatedAt config path before]? = some (some effect)
  applied : ∃ unit annotated front, before.unit? path = some unit ∧
    AnnotatedProperty.first? config unit = some annotated ∧
    before.apply path [⟨annotated.decorator.span.through annotated.property.span,
      front ++ effect.definition config⟩] = .ok after
  reads : ReadsEffect config path before after

/-- The effects that are written, one after the other, until no field is annotated. -/
inductive EffectRun (config : Config) (path : Path) (passes : List Pass) :
    List EffectRecord → Project → Project → Prop where
  | ended {counts last : Table Pass Nat} {before after : Project}
      (passed : runPasses config path counts passes before = .ok last after)
      (kept : KeepsFields config path before after)
      (none : ∀ field ∈ fieldsAt config path after, field.isAnnotated config = false) :
      EffectRun config path passes [] before after
  | effect {counts last : Table Pass Nat} {effect : EffectRecord} {effects : List EffectRecord}
      {before between wrapped after : Project}
      (passed : runPasses config path counts passes before = .ok last between)
      (kept : KeepsFields config path before between)
      (wraps : WrapsFirst config path effect between wrapped)
      (others : EffectRun config path passes effects wrapped after) :
      EffectRun config path passes (effect :: effects) before after

section

variable {config : Config} {path : Path} {passes : List Pass} {project between result : Project}
  {unit : SourceUnit} {annotated : AnnotatedProperty} {effect : EffectRecord}

theorem fieldsAt_eq (found : project.unit? path = some unit) :
    fieldsAt config path project = unit.fields config := by
  rw [fieldsAt, found, Option.map_some, Option.getD_some]

theorem modify_length {α : Type} (change : α → α) (front rest : List α) (item : α) :
    (front ++ item :: rest).modify front.length change = front ++ change item :: rest := by
  rw [List.modify_eq_take_cons_drop (by simp)]
  simp

/-- In front of an annotated field without such a field in front of it. -/
theorem firstAnnotatedAt_eq {front rest : List FieldRecord} {field : FieldRecord}
    (split : fieldsAt config path project = front ++ field :: rest)
    (before : ∀ other ∈ front, other.isAnnotated config = false)
    (own : field.isAnnotated config = true) : firstAnnotatedAt config path project = front.length := by
  rw [firstAnnotatedAt, split, List.findIdx_append,
    List.findIdx_eq_length_of_false before, if_neg (Nat.lt_irrefl _), List.findIdx_cons, own]
  simp

theorem exists_split_of_first? (found : project.unit? path = some unit)
    (first : AnnotatedProperty.first? config unit = some annotated) :
    ∃ front place rest, unit.fieldPlaces = front ++ place :: rest ∧
      fieldsAt config path project = front.map (FieldRecord.ofPlace config unit) ++
        FieldRecord.ofPlace config unit place :: rest.map (FieldRecord.ofPlace config unit) ∧
      AnnotatedProperty.ofPlace? config unit place = some annotated ∧
      (FieldRecord.ofPlace config unit place).isAnnotated config = true ∧
      (∀ field ∈ front.map (FieldRecord.ofPlace config unit), field.isAnnotated config = false) ∧
      firstAnnotatedAt config path project = front.length := by
  obtain ⟨front, place, rest, split, before, own, isAnnotated⟩ :=
    AnnotatedProperty.exists_of_first? first
  have without : ∀ field ∈ front.map (FieldRecord.ofPlace config unit),
      field.isAnnotated config = false := List.forall_mem_map.2 before
  have fields : fieldsAt config path project = front.map (FieldRecord.ofPlace config unit) ++
      FieldRecord.ofPlace config unit place :: rest.map (FieldRecord.ofPlace config unit) := by
    rw [fieldsAt_eq found, SourceUnit.fields, split, List.map_append, List.map_cons]
  refine ⟨front, place, rest, split, fields, own, isAnnotated, without, ?_⟩
  rw [firstAnnotatedAt_eq fields without isAnnotated, List.length_map]

/-- The effect is what the record of the field is to become. -/
structure EffectRecord.IsFor (config : Config) (effect : EffectRecord) (field : FieldRecord) :
    Prop where
  name_eq : field.name = some effect.name
  value_eq : (field.wrapped config).value = .effect effect.argument.toList.length

theorem EffectRecord.isFor_of_due? {place : Place} (due : due? config unit place = some effect) :
    effect.IsFor config (FieldRecord.ofPlace config unit place) := by
  obtain ⟨annotating, found, others⟩ := Option.bind_eq_some_iff.1 due
  obtain ⟨name, hasName, others⟩ := Option.bind_eq_some_iff.1 others
  obtain ⟨value, hasValue, same⟩ := Option.bind_eq_some_iff.1 others
  cases same
  refine ⟨by simp only [FieldRecord.ofPlace, hasName, Option.map_some], ?_⟩
  have annotated : (FieldRecord.ofPlace config unit place).decorators.find?
      (DecoratorRecord.annotates config) = some (DecoratorRecord.ofNode unit.text annotating) := by
    rw [FieldRecord.ofPlace, List.find?_map]
    exact congrArg (Option.map _) found
  rw [FieldRecord.wrapped, annotated]
  cases held : annotating.decoratorArgument? <;> simp [DecoratorRecord.ofNode, held]

/-- One of the fields, and no annotated one in front of it, becomes an effect. -/
theorem WrapsFirst.exists_split (wraps : WrapsFirst config path effect project between) :
    ∃ front field rest, fieldsAt config path project = front ++ field :: rest ∧
      (∀ other ∈ front, other.isAnnotated config = false) ∧ field.isAnnotated config = true ∧
      fieldsAt config path between = front ++ field.wrapped config :: rest ∧
      effect.IsFor config field := by
  obtain ⟨unit, annotated, _, found, first, _⟩ := wraps.applied
  obtain ⟨front, place, rest, split, fields, _, isAnnotated, without, index⟩ :=
    exists_split_of_first? found first
  refine ⟨_, _, _, fields, without, isAnnotated, ?_, EffectRecord.isFor_of_due? ?_⟩
  · rw [wraps.reads.1, fields, index, ← List.length_map (FieldRecord.ofPlace config unit),
      modify_length]
  · have due := wraps.due
    rw [index, effectsDueAt, found, Option.map_some, Option.getD_some, split, List.map_append,
      List.map_cons, ← List.length_map (EffectRecord.due? config unit)] at due
    simpa using due

/-- Where all annotated fields are complete the first one is wrapped, if there is one. -/
theorem wraps_or_none {wraps : Bool} {wrapped : Project}
    (ran : wrapNext config path between = .ok wraps wrapped)
    (complete : ∀ field ∈ fieldsAt config path between, field.isAnnotated config = true →
      field.isComplete = true) :
    (wraps = false ∧ wrapped = between ∧
      ∀ field ∈ fieldsAt config path between, field.isAnnotated config = false) ∨
    wraps = true ∧ ∃ effect, (ReadsEffect config path between wrapped →
      WrapsFirst config path effect between wrapped) := by
  obtain ⟨unit, found, outcome⟩ := wrapNext_cases ran
  rw [fieldsAt_eq found] at complete ⊢
  cases first : AnnotatedProperty.first? config unit with
  | none =>
    rw [first] at outcome
    obtain ⟨rfl, rfl⟩ := outcome
    exact .inl ⟨rfl, rfl, AnnotatedProperty.all_eq_nil_iff.1 (List.head?_eq_none_iff.1 first)⟩
  | some annotated =>
    obtain ⟨front, place, rest, split, _, own, isAnnotated, _, index⟩ :=
      exists_split_of_first? found first
    have member : place ∈ unit.fieldPlaces := split ▸ by simp
    obtain ⟨effect, kept, due, edit⟩ := AnnotatedProperty.exists_wrapEdit? own
      (complete _ (List.mem_map_of_mem member) isAnnotated)
    rw [first, Option.bind_some, edit] at outcome
    obtain ⟨rfl, applied⟩ := outcome
    -- the effects that are due are told by the fields, with the first annotated one split off
    refine .inr ⟨rfl, effect, fun reads =>
      ⟨?_, ⟨unit, annotated, kept, found, first, applied⟩, reads⟩⟩
    rw [effectsDueAt, found, Option.map_some, Option.getD_some, index, split, List.map_append,
      List.map_cons, due]
    simp

theorem WrapsFirst.isComplete (wraps : WrapsFirst config path effect project between)
    (complete : ∀ field ∈ fieldsAt config path project, field.isAnnotated config = true →
      field.isComplete = true) :
    ∀ field ∈ fieldsAt config path between, field.isAnnotated config = true →
      field.isComplete = true := by
  obtain ⟨front, field, rest, fields, _, own, fieldsThen, _⟩ := wraps.exists_split
  rw [fields] at complete
  rw [fieldsThen]
  intro other member annotated
  rcases List.mem_append.1 member with member | member
  · exact complete other (List.mem_append_left _ member) annotated
  · rcases List.mem_cons.1 member with rfl | member
    · exact FieldRecord.isComplete_wrapped (complete field (by simp) own)
    · exact complete other (by simp [member]) annotated

/-- The wrapping of complete fields ends by itself where the texts are read as they are written. -/
theorem exists_effectRun {turns : Nat} {start changes : PipelineChanges}
    (ran : runPipelines config path passes turns start project = .ok changes result)
    (found : project.unit? path = some unit) (enough : wrapLimitAt path project ≤ turns)
    (complete : ∀ field ∈ fieldsAt config path project, field.isAnnotated config = true →
      field.isComplete = true)
    (reads : readsAsWritten config path passes turns project = true) :
    ∃ effects, EffectRun config path passes effects project result ∧
      changes.properties = start.properties + effects.length ∧
      KeepsFields config path result (behindAlignment config path result) := by
  induction turns generalizing start project unit with
  | zero =>
    rw [wrapLimitAt, found] at enough
    exact absurd enough (Nat.not_succ_le_zero _)
  | succ turns inductionHypothesis =>
    obtain ⟨_, between, passed, turnAndRest⟩ := bind_eq_ok_iff.1 ran
    obtain ⟨wraps, wrapped, turn, rest⟩ := bind_eq_ok_iff.1 turnAndRest
    rw [readsAsWritten, behindPasses_eq passed, behindWrap?_eq turn, Bool.and_eq_true,
      decide_eq_true_iff] at reads
    obtain ⟨kept, reads⟩ := reads
    rw [← kept.1] at complete
    rcases wraps_or_none turn complete with ⟨rfl, rfl, none⟩ | ⟨rfl, effect, wrapsFirst⟩
    · obtain ⟨rfl, rfl⟩ := pure_eq_ok_iff.1 rest
      exact ⟨[], .ended passed kept none, rfl, of_decide_eq_true reads⟩
    · obtain ⟨readsFirst, readsOthers⟩ := Bool.and_eq_true_iff.1 reads
      have readsEffect := of_decide_eq_true readsFirst
      have wraps := wrapsFirst readsEffect
      obtain ⟨_, _, _, _, _, applied⟩ := wraps.applied
      obtain ⟨_, written, _, _, foundWritten⟩ := unit?_of_apply applied
      -- a wrapped field is no longer annotated, so the limit goes down with each turn
      have fewer : wrapLimitAt path wrapped ≤ turns := by
        have noMore := kept.2
        have less := readsEffect.2.2
        omega
      obtain ⟨effects, others, counted, aligned⟩ :=
        inductionHypothesis rest foundWritten fewer (wraps.isComplete complete) readsOthers
      refine ⟨effect :: effects, .effect passed kept wraps others, ?_, aligned⟩
      rw [counted, List.length_cons, Nat.add_right_comm, Nat.add_assoc]

/-- All fields keep their names, and the annotated ones become the effects that are written. -/
theorem EffectRun.fields_eq {effects : List EffectRecord}
    (run : EffectRun config path passes effects project result)
    (once : ∀ field ∈ fieldsAt config path project, field.IsAnnotatedOnce config) :
    fieldsAt config path result =
        (fieldsAt config path project).map (FieldRecord.wrapped config) ∧
      List.Forall₂ (EffectRecord.IsFor config) effects
        ((fieldsAt config path project).filter (FieldRecord.isAnnotated config)) := by
  induction run with
  | @ended counts last before after passed kept none =>
    rw [kept.1] at none ⊢
    refine ⟨?_, ?_⟩
    · exact ((List.map_congr_left fun field member =>
        FieldRecord.wrapped_of_not_isAnnotated (none field member)).trans (List.map_id _)).symm
    · rw [List.filter_eq_nil_iff.2 fun field member => by simp [none field member]]
      exact .nil
  | @effect counts last effect effects before between wrapped after passed kept wraps others
      inductionHypothesis =>
    obtain ⟨front, field, rest, fields, without, own, fieldsThen, isFor⟩ := wraps.exists_split
    rw [← kept.1, fields] at once ⊢
    have ownOnce := once field (by simp)
    -- the wrapped field has lost its only annotation, and the others are as they were
    have onceThen : ∀ other ∈ fieldsAt config path wrapped, other.IsAnnotatedOnce config := by
      rw [fieldsThen]
      intro other member
      rcases List.mem_append.1 member with member | member
      · exact once other (List.mem_append_left _ member)
      · rcases List.mem_cons.1 member with rfl | member
        · exact FieldRecord.isAnnotatedOnce_wrapped ownOnce
        · exact once other (by simp [member])
    obtain ⟨last, written⟩ := inductionHypothesis onceThen
    have frontNone : front.filter (FieldRecord.isAnnotated config) = [] :=
      List.filter_eq_nil_iff.2 fun other member => by simp [without other member]
    rw [fieldsThen] at last written
    refine ⟨?_, ?_⟩
    · rw [last, List.map_append, List.map_append, List.map_cons, List.map_cons,
        FieldRecord.wrapped_wrapped ownOnce]
    · rw [List.filter_append, frontNone, List.filter_cons_of_pos own]
      rw [List.filter_append, frontNone, List.filter_cons_of_neg (by
        simp [FieldRecord.not_isAnnotated_wrapped ownOnce])] at written
      exact .cons isFor written

end

/-! ## The whole migration -/

/-- What becomes of a unit whose annotated properties are wrapped. -/
structure WrapsEffects (config : Config) (path : Path) (passes : List Pass) (unit : SourceUnit)
    (project : Project) : Prop where
  ends : (∀ property ∈ AnnotatedProperty.all config unit, property.holdsCall = true) →
    ∀ start, ∃ effects changes result,
      runPipelines config path passes (wrapLimit unit) start project = .ok changes result ∧
      EffectRun config path passes effects project result ∧
      changes.properties = start.properties + effects.length ∧
      List.Forall₂ (EffectRecord.IsFor config) effects
        ((unit.fields config).filter (FieldRecord.isAnnotated config))
  migrated : ∀ changes result,
    migratePipelines config passes path project = .ok (.migrated changes) result →
      changes.properties = (AnnotatedProperty.all config unit).length ∧
      fieldsAt config path result = (unit.fields config).map (FieldRecord.wrapped config) ∧
      ∀ last ∈ result.unit? path, AnnotatedProperty.all config last = []

theorem isComplete_of_holdsCall {config : Config} {unit : SourceUnit}
    (calls : ∀ property ∈ AnnotatedProperty.all config unit, property.holdsCall = true)
    {field : FieldRecord} (member : field ∈ unit.fields config)
    (annotated : field.isAnnotated config = true) (named : field.name.isSome = true) :
    field.isComplete = true := by
  obtain ⟨place, placeMember, rfl⟩ := List.mem_map.1 member
  rw [← isSome_ofPlace? (SourceUnit.kind_of_mem_fieldPlaces placeMember)] at annotated
  obtain ⟨property, own⟩ := Option.isSome_iff_exists.1 annotated
  have holdsCall := calls property (by
    rw [AnnotatedProperty.all_eq]
    exact List.mem_filterMap.2 ⟨place, placeMember, own⟩)
  unfold AnnotatedProperty.ofPlace? at own
  split at own
  · obtain ⟨decorator, _, rfl⟩ := Option.map_eq_some_iff.1 own
    rw [AnnotatedProperty.holdsCall, AnnotatedProperty.value?] at holdsCall
    cases hasValue : place.node.child? .value with
    | none => simp [hasValue] at holdsCall
    | some value =>
      rw [FieldRecord.isComplete, named, Bool.true_and]
      simp only [FieldRecord.ofPlace, hasValue, FieldValue.ofNode?]
      split <;> rfl
  · cases own

def bareLibrary : Config := { library := [] }

/-- An annotated field with options, another decorator and a modifier. -/
def decoratedEffect : Project :=
  ofSources ⟨""⟩ {} [(⟨"u.ts"⟩, "class E\x7b@Effect(o)@I()readonly x=a()\x7d")]

/-- The number of wrapped properties of a migrated unit. -/
def Outcome.properties? : Outcome PipelineChanges → Option Nat
  | .migrated changes => some changes.properties
  | .skipped _ => none

theorem exists_migrated_of_properties? {outcome : Outcome PipelineChanges} {properties : Nat}
    (counted : outcome.properties? = some properties) :
    ∃ changes, outcome = .migrated changes ∧ changes.properties = properties := by
  cases outcome with
  | migrated changes => exact ⟨changes, rfl, Option.some.inj counted⟩
  | skipped => cases counted

/-- A field whose name is computed, behind a field without a semicolon. -/
def computedName : Project :=
  ofSources ⟨""⟩ {} [(⟨"u.ts"⟩, "class E\x7bn=f\n@Effect()[x]=a()\x7d")]

end CreatorMigration
