import CreatorMigration.Migration.Reducer
import CreatorMigration.Proofs.Edit
import CreatorMigration.Proofs.Naming
import CreatorMigration.Proofs.Project.Changes

/-! # What becomes of a switch

The clauses of the switch of a migrated reducer are registered in a table under the names of their
labels, and the function that held the switch is left with a call of the table.
-/

namespace CreatorMigration

open Project Update

/-! ## What is registered -/

/-- A clause is registered once under the name of each of its labels. -/
theorem labelGroups_flatten_perm (own : String) (preceding : List String) :
    (labelGroups own preceding).flatten.Perm (preceding ++ [own]) := by
  fun_induction labelGroups own preceding with
  | case1 preceding long ih =>
    rw [List.flatten_cons]
    refine (ih.append_left _).trans ?_
    rw [← List.append_assoc, List.take_append_drop]
  | case2 preceding short =>
    simpa using (List.perm_append_singleton own preceding).symm

theorem SwitchClause.nameGroups_perm (clause : SwitchClause) :
    clause.nameGroups.flatten.Perm (clause.labels.map factoryName) := by
  simpa [nameGroups, labels] using
    labelGroups_flatten_perm (factoryName clause.label) (clause.preceding.map factoryName)

theorem SwitchClause.isUndotted_of_mem_nameGroups {clause : SwitchClause} {group : List String}
    (member : group ∈ clause.nameGroups) {name : String} (nameMember : name ∈ group) :
    IsUndotted name := by
  have registered : name ∈ clause.labels.map factoryName :=
    clause.nameGroups_perm.subset (List.mem_flatten_of_mem member nameMember)
  obtain ⟨label, _, rfl⟩ := List.mem_map.1 registered
  exact isUndotted_factoryName label

/-! ## Readings -/

/-- What a migration reads in a reducer. -/
structure ReducerReading where
  unit : SourceUnit
  declaration : Declaration
  switch : Node

namespace ReducerReading

variable (config : Config) (reading : ReducerReading)

def signature : ReducerSignature :=
  ReducerSignature.ofFunction reading.unit reading.declaration.node

def clauses : List SwitchClause :=
  SwitchClause.ofSwitch reading.unit reading.signature reading.switch

def table : String :=
  tableDeclaration config.creators reading.signature
    (registrations config.creators reading.signature reading.clauses)

def edits : List Edit :=
  reducerEdits config.creators reading.unit reading.declaration reading.signature
    (reading.table config)

/-- The reading is that of the unit at a path. -/
structure IsOf (path : Path) (project : Project) : Prop where
  found : project.unit? path = some reading.unit
  function : reducingFunction? config.naming reading.unit = some reading.declaration
  switch : switchOf? reading.declaration.node = some reading.switch

end ReducerReading

/-! ## The migration -/

theorem changesOnly_finishReducer (config : Config) (path : Path) (edits : List Edit) :
    ChangesOnly path (finishReducer config path edits) :=
  (changesOnly_apply edits).bind fun _ => (changesOnly_importName _ _ _).bind fun _ =>
    (changesOnly_alignImports config.library path).bind fun _ => changesOnly_pure ()

theorem changesOnly_migrateReducer (config : Config) (path : Path) (types : Option ActionTypes) :
    ChangesOnly path (migrateReducer config path types) := by
  refine changesOnly_get.bind fun project => ?_
  cases project.unit? path with
  | none => exact changesOnly_pure _
  | some unit =>
    cases called : unit.calls config.creators.createReducer with
    | true =>
      simp only [called]
      exact changesOnly_pure _
    | false =>
      cases function : reducingFunction? config.naming unit with
      | none =>
        simp only [called, function]
        exact changesOnly_pure _
      | some declaration =>
        cases first : switchOf? declaration.node with
        | none =>
          simp only [called, function, first]
          exact changesOnly_throw _
        | some switch =>
          simp only [called, function, first]
          exact ((changesOnly_finishReducer config path _).withError _).bind fun _ =>
            changesOnly_pure _

theorem migrateReducer_eq_migrated {config : Config} {path : Path} {types : Option ActionTypes}
    {project result : Project} {changes : ReducerChanges}
    (ran : migrateReducer config path types project = .ok (.migrated changes) result) :
    ∃ reading : ReducerReading, reading.IsOf config path project ∧
      finishReducer config path (reading.edits config) project = .ok () result := by
  obtain ⟨_, _, got, rest⟩ := bind_eq_ok_iff.1 ran
  obtain ⟨rfl, rfl⟩ := get_eq_ok_iff.1 got
  cases found : project.unit? path with
  | none =>
    rw [found] at rest
    cases (pure_eq_ok_iff.1 rest).1
  | some unit =>
    cases called : unit.calls config.creators.createReducer with
    | true =>
      simp only [found, called] at rest
      cases (pure_eq_ok_iff.1 rest).1
    | false =>
      cases function : reducingFunction? config.naming unit with
      | none =>
        simp only [found, called, function] at rest
        cases (pure_eq_ok_iff.1 rest).1
      | some declaration =>
        cases first : switchOf? declaration.node with
        | none =>
          simp only [found, called, function, first] at rest
          cases rest
        | some switch =>
          simp only [found, called, function, first] at rest
          obtain ⟨_, _, finished, answered⟩ := bind_eq_ok_iff.1 rest
          obtain ⟨_, rfl⟩ := pure_eq_ok_iff.1 answered
          exact ⟨⟨unit, declaration, switch⟩, ⟨found, function, first⟩,
            withError_eq_ok_iff.1 finished⟩

/-! ## The text that is left -/

/-- The names that a migrated reducer uses are imported into the text that the edits left. -/
structure ImportsAligned (config : Config) (path : Path) (text : String) (after : Project) : Prop where
  brought : ∃ middle unit, middle.unit? path = some unit ∧ unit.text = text ∧
    ∃ added between changes,
      addImport path config.creators.on
        ((config.library.find? config.creators.on).getD "@ngrx/store") middle = .ok added between ∧
      alignImports config.library path between = .ok changes after

/-- The function that held the switch is left with a call of the table, and the table registers each
clause once under a name without a dot for each of its labels. -/
structure SwitchReplaced (config : Config) (path : Path) (before after : Project)
    (reading : ReducerReading) (text : String) : Prop where
  read : reading.IsOf config path before
  tabled : ∃ front back, text = front ++ reading.table config ++ back
  delegated : ∀ body ∈ reading.declaration.node.child? .body, ∃ earlier later,
    text = Edit.spliceTo reading.unit.text body.span.start 0 earlier ++
      (delegationEdit config.creators reading.signature body).replacement ++
        Edit.splice reading.unit.text body.span.stop later
  registered : ∀ clause ∈ reading.clauses,
    clause.nameGroups.flatten.Perm (clause.labels.map factoryName) ∧
      ∀ group ∈ clause.nameGroups, ∀ name ∈ group, IsUndotted name
  imported : ImportsAligned config path text after

theorem SourceUnit.text_of_apply {unit changed : SourceUnit} {edits : List Edit}
    (applied : unit.apply edits = .ok changed) (some : edits ≠ []) :
    Edit.applyAll unit.text edits = .ok changed.text := by
  unfold apply at applied
  rw [if_neg (by simpa using some)] at applied
  cases spliced : Edit.applyAll unit.text edits with
  | error => simp [spliced, Except.map] at applied
  | ok text =>
    simp only [spliced, Except.map, Except.ok.injEq] at applied
    rw [← applied]
    rfl

theorem ReducerReading.delegationEdit_mem (config : Config) {reading : ReducerReading} {body : Node}
    (held : body ∈ reading.declaration.node.child? .body) :
    delegationEdit config.creators reading.signature body ∈ reading.edits config := by
  unfold edits reducerEdits
  rw [Option.mem_def.1 held]
  simp

theorem exists_switchReplaced {config : Config} {path : Path} {types : Option ActionTypes}
    {before after : Project} {changes : ReducerChanges}
    (ran : migrateReducer config path types before = .ok (.migrated changes) after) :
    ∃ reading text, SwitchReplaced config path before after reading text := by
  obtain ⟨reading, read, finished⟩ := migrateReducer_eq_migrated ran
  obtain ⟨_, middle, applied, rest⟩ := bind_eq_ok_iff.1 finished
  obtain ⟨added, between, brought, rest⟩ := bind_eq_ok_iff.1 rest
  obtain ⟨changes, _, aligned, answered⟩ := bind_eq_ok_iff.1 rest
  obtain ⟨_, rfl⟩ := pure_eq_ok_iff.1 answered
  obtain ⟨unit, changed, found, changesUnit, foundChanged⟩ :=
    unit?_of_apply (apply_eq_ok_iff.1 applied)
  obtain rfl : reading.unit = unit := Option.some.inj (read.found.symm.trans found)
  -- both edits are of one batch: each ends up between the texts around it, with the others put in
  have spliced := SourceUnit.text_of_apply changesUnit (List.cons_ne_nil _ _)
  refine ⟨reading, changed.text, read, ?_, ?_, ?_, ⟨middle, changed, foundChanged, rfl, added,
    between, changes, brought, aligned⟩⟩
  · obtain ⟨earlier, later, _, split⟩ := Edit.exists_of_applyAll spliced List.mem_cons_self
    exact ⟨_, _, split⟩
  · intro body held
    obtain ⟨earlier, later, _, split⟩ :=
      Edit.exists_of_applyAll spliced (ReducerReading.delegationEdit_mem config held)
    exact ⟨earlier, later, split⟩
  · intro clause _
    exact ⟨clause.nameGroups_perm, fun _ member _ nameMember =>
      SwitchClause.isUndotted_of_mem_nameGroups member nameMember⟩

end CreatorMigration
