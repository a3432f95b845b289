import CreatorMigration.Proofs.Migration.Fallthrough
import Mathlib.Algebra.GroupWithZero.Nat

/-! # Labels in the table

The labels of a switch are read clause by clause and registered in groups. No label is lost on the
way, none is registered twice, and no registration takes more than it may.

* `HandledClause.flatMap_labels_listed` follows the labels through the reading.
* `spreadsLabels_labelGroups` says how the labels of a clause are spread over its registrations.
* `labels_registered` puts both together, up to the number that a migration reports.
-/

namespace CreatorMigration

open Project Update

/-! ## Reading -/

namespace WrittenClause

/-- The labels of the case clauses up to the last one with statements. -/
def labelsHandled (clauses : List WrittenClause) : List String :=
  (clauses.rdropWhile fun clause => !clause.isHandled).filterMap label

/-- The labels behind the last clause with statements are those that wait in the end. -/
theorem labelsHandled_append_waitingLabels (clauses : List WrittenClause) :
    labelsHandled clauses ++ waitingLabels clauses = clauses.filterMap label := by
  rw [labelsHandled, waitingLabels, ← List.filterMap_append, List.rdropWhile, List.rtakeWhile,
    ← List.reverse_append, List.takeWhile_append_dropWhile, List.reverse_reverse]

end WrittenClause

namespace HandledClause

open WrittenClause

theorem ofClause?_of_isHandled {clause : WrittenClause} (handled : clause.isHandled = true)
    (before after : List WrittenClause) :
    ∃ label, clause.label = some label ∧
      ofClause? before clause after = some ⟨before, label, clause.statements, after⟩ := by
  obtain ⟨label, statements⟩ := clause
  cases label with
  | none => simp [isHandled] at handled
  | some label =>
    cases statements with
    | nil => simp [isHandled] at handled
    | cons first more => exact ⟨label, rfl, rfl⟩

theorem ofClause?_of_not_isHandled {before after : List WrittenClause} {clause : WrittenClause}
    (skipped : clause.isHandled = false) : ofClause? before clause after = none := by
  obtain ⟨label, statements⟩ := clause
  cases label with
  | none => rfl
  | some label =>
    cases statements with
    | nil => rfl
    | cons first more => simp [isHandled] at skipped

/-- The labels that wait in front of some clauses and those of the clauses themselves are taken up
by the handled clauses, but for those that wait behind all of them. -/
theorem flatMap_labels_listed (before clauses : List WrittenClause) :
    (listed before clauses).flatMap (fun clause => waitingLabels clause.before ++ [clause.label]) ++
        waitingLabels (before ++ clauses) =
      waitingLabels before ++ clauses.filterMap WrittenClause.label := by
  induction clauses generalizing before with
  | nil => simp [listed]
  | cons first rest inductionHypothesis =>
    have reads := inductionHypothesis (before ++ [first])
    rw [waitingLabels_concat, List.append_assoc, List.singleton_append] at reads
    cases handled : first.isHandled with
    | true =>
      obtain ⟨label, labelled, taken⟩ := ofClause?_of_isHandled handled before rest
      rw [handled, if_pos rfl, List.nil_append] at reads
      simp [listed, taken, labelled, reads]
    | false =>
      rw [handled, if_neg Bool.false_ne_true] at reads
      rw [listed, ofClause?_of_not_isHandled handled, Option.toList_none, List.nil_append, reads]
      cases labelled : first.label <;> simp [labelled]

theorem map_label_listed (before clauses : List WrittenClause) :
    (listed before clauses).map HandledClause.label =
      (clauses.filter WrittenClause.isHandled).filterMap WrittenClause.label := by
  induction clauses generalizing before with
  | nil => rfl
  | cons first rest inductionHypothesis =>
    cases handled : first.isHandled with
    | true =>
      obtain ⟨label, labelled, taken⟩ := ofClause?_of_isHandled handled before rest
      simp [listed, taken, labelled, handled, inductionHypothesis]
    | false =>
      simp [listed, ofClause?_of_not_isHandled handled, handled, inductionHypothesis]

theorem length_listed (before clauses : List WrittenClause) :
    (listed before clauses).length = (clauses.filter WrittenClause.isHandled).length := by
  induction clauses generalizing before with
  | nil => rfl
  | cons first rest inductionHypothesis =>
    cases handled : first.isHandled with
    | true =>
      obtain ⟨label, _, taken⟩ := ofClause?_of_isHandled handled before rest
      simp [listed, taken, handled, inductionHypothesis]
    | false =>
      simp [listed, ofClause?_of_not_isHandled handled, handled, inductionHypothesis]

end HandledClause

namespace SwitchClause

variable (unit : SourceUnit) (signature : ReducerSignature) (switch : Node)

theorem flatMap_labels_ofSwitch :
    (ofSwitch unit signature switch).flatMap labels =
      WrittenClause.labelsHandled (WrittenClause.ofSwitch unit switch) := by
  have read := HandledClause.flatMap_labels_listed [] (WrittenClause.ofSwitch unit switch)
  rw [List.nil_append, show WrittenClause.waitingLabels [] = [] from rfl, List.nil_append,
    ← WrittenClause.labelsHandled_append_waitingLabels, List.append_left_inj] at read
  rw [ofSwitch_eq, List.flatMap_map, ← read, HandledClause.ofSwitch]
  exact List.flatMap_congr fun clause _ => labels_ofStatements _ _ _ _ _

theorem label_ofStatements (label : String) (preceding : List String) (statements : List Node) :
    (ofStatements unit signature label preceding statements).label = label := by
  rw [ofStatements]
  split <;> rfl

theorem map_label_ofSwitch :
    (ofSwitch unit signature switch).map SwitchClause.label =
      ((WrittenClause.ofSwitch unit switch).filter WrittenClause.isHandled).filterMap
        WrittenClause.label := by
  rw [ofSwitch_eq, List.map_map, ← HandledClause.map_label_listed []]
  exact List.map_congr_left fun clause _ => label_ofStatements _ _ _ _ _

theorem length_ofSwitch :
    (ofSwitch unit signature switch).length =
      ((WrittenClause.ofSwitch unit switch).filter WrittenClause.isHandled).length := by
  rw [ofSwitch_eq, List.length_map, HandledClause.ofSwitch, HandledClause.length_listed]

end SwitchClause

/-! ## Groups -/

/-- Groups that hold a label and those in front of it: none is empty or too long, and only the last
one holds the label itself, in front of what the others have left. -/
structure SpreadsLabels (own : String) (preceding : List String) (groups : List (List String)) :
    Prop where
  bounded : ∀ group ∈ groups, 1 ≤ group.length ∧ group.length ≤ arityLimit
  inOrder : ∃ full rest, groups = full ++ [own :: rest] ∧ full.flatten ++ rest = preceding
  count : groups.length = preceding.length / arityLimit + 1

theorem spreadsLabels_labelGroups (own : String) (preceding : List String) :
    SpreadsLabels own preceding (labelGroups own preceding) := by
  fun_induction labelGroups own preceding with
  | case1 preceding long inductionHypothesis =>
    obtain ⟨bounded, ⟨full, rest, groups, inOrder⟩, count⟩ := inductionHypothesis
    have taken : (preceding.take arityLimit).length = arityLimit := by
      rw [List.length_take, Nat.min_eq_left long]
    refine ⟨?_, ⟨preceding.take arityLimit :: full, rest, by rw [groups]; rfl, ?_⟩, ?_⟩
    · refine List.forall_mem_cons.2 ⟨?_, bounded⟩
      rw [taken]
      exact ⟨by decide, Nat.le_refl _⟩
    · rw [List.flatten_cons, List.append_assoc, inOrder, List.take_append_drop]
    · rw [List.length_cons, count, List.length_drop, ← Nat.div_eq_sub_div (by decide) long]
  | case2 preceding short =>
    refine ⟨?_, ⟨[], preceding, rfl, rfl⟩, ?_⟩
    · refine List.forall_mem_singleton.2 ⟨Nat.le_add_left _ _, ?_⟩
      exact Nat.not_le.1 short
    · rw [List.length_singleton, Nat.div_eq_of_lt (Nat.not_le.1 short)]

/-! ## The table -/

namespace SwitchClause

/-- The registration of the handler of a clause under some names. -/
def registration (creators : CreatorNames) (signature : ReducerSignature) (clause : SwitchClause)
    (names : List String) : String :=
  creators.on ++ "(" ++ Text.join ", " names ++ ", " ++
    (clause.parameterUse.render signature.state signature.action ++ " => " ++ clause.body) ++ ")"

theorem length_registrationsOf (creators : CreatorNames) (signature : ReducerSignature)
    (clause : SwitchClause) :
    (registrationsOf creators signature clause).length =
      clause.preceding.length / arityLimit + 1 := by
  rw [registrationsOf, List.length_map, nameGroups, (spreadsLabels_labelGroups _ _).count,
    List.length_map]

end SwitchClause

/-- Every label of a switch up to that of the last clause with statements is registered once. -/
structure LabelsRegistered (creators : CreatorNames) (unit : SourceUnit)
    (signature : ReducerSignature) (switch : Node) (clauses : List SwitchClause) : Prop where
  /-- The labels are read in the order of the source, each by one clause. -/
  labels : clauses.flatMap SwitchClause.labels =
    WrittenClause.labelsHandled (WrittenClause.ofSwitch unit switch)
  /-- There is a clause for each case clause with statements, under the label of that. -/
  own : clauses.map SwitchClause.label =
    ((WrittenClause.ofSwitch unit switch).filter WrittenClause.isHandled).filterMap
      WrittenClause.label
  number : clauses.length =
    ((WrittenClause.ofSwitch unit switch).filter WrittenClause.isHandled).length
  /-- The table lists the registrations clause by clause, those of one clause with one handler. -/
  table : tableDeclaration creators signature (registrations creators signature clauses) =
    "const " ++ creators.tableName ++ " = " ++ creators.createReducer ++ "(\n  " ++
      Text.join ",\n  " (signature.initialState :: clauses.flatMap fun clause =>
        clause.nameGroups.map (clause.registration creators signature)) ++ ",\n);\n\n"
  spread : ∀ clause ∈ clauses, SpreadsLabels (factoryName clause.label)
    (clause.preceding.map factoryName) clause.nameGroups
  count : (registrations creators signature clauses).length =
    (clauses.map fun clause => clause.preceding.length / arityLimit + 1).sum

theorem labelsRegistered_ofSwitch (creators : CreatorNames) (unit : SourceUnit)
    (signature : ReducerSignature) (switch : Node) :
    LabelsRegistered creators unit signature switch
      (SwitchClause.ofSwitch unit signature switch) where
  labels := SwitchClause.flatMap_labels_ofSwitch unit signature switch
  own := SwitchClause.map_label_ofSwitch unit signature switch
  number := SwitchClause.length_ofSwitch unit signature switch
  table := rfl
  spread := fun clause _ => spreadsLabels_labelGroups _ _
  count := by
    rw [registrations, List.length_flatMap]
    exact congrArg List.sum (List.map_congr_left fun clause _ =>
      SwitchClause.length_registrationsOf creators signature clause)

/-! ## What is reported -/

/-- A migration reports the clauses and the registrations of its reading. -/
theorem ReducerReading.IsOf.changes_eq {config : Config} {path : Path}
    {types : Option ActionTypes} {before after : Project} {changes : ReducerChanges}
    {reading : ReducerReading} (read : reading.IsOf config path before)
    (ran : migrateReducer config path types before = .ok (.migrated changes) after) :
    changes.clauses = reading.clauses.length ∧ changes.registrations =
      (registrations config.creators reading.signature reading.clauses).length := by
  cases called : reading.unit.calls config.creators.createReducer with
  | true =>
    rw [read.migrateReducer_of_calls types called] at ran
    cases ran
  | false =>
    obtain ⟨_, _, got, rest⟩ := bind_eq_ok_iff.1 ran
    obtain ⟨rfl, rfl⟩ := get_eq_ok_iff.1 got
    simp only [read.found, called, read.function, read.switch] at rest
    obtain ⟨_, _, _, answered⟩ := bind_eq_ok_iff.1 rest
    cases (pure_eq_ok_iff.1 answered).1
    exact ⟨rfl, rfl⟩

/-- Whatever the switch, its labels are registered once and in order, in groups that one
registration takes; and a migration reports as many registrations as that makes. -/
theorem labels_registered (config : Config) :
    (∀ unit signature switch, LabelsRegistered config.creators unit signature switch
      (SwitchClause.ofSwitch unit signature switch)) ∧
    ∀ path types before changes after (reading : ReducerReading),
      reading.IsOf config path before →
      migrateReducer config path types before = .ok (.migrated changes) after →
        changes.clauses = reading.clauses.length ∧
        changes.registrations =
          (reading.clauses.map fun clause => clause.preceding.length / arityLimit + 1).sum := by
  refine ⟨fun unit signature switch => labelsRegistered_ofSwitch _ _ _ _, ?_⟩
  intro path types before changes after reading read ran
  obtain ⟨clauses, registered⟩ := read.changes_eq ran
  exact ⟨clauses, registered.trans (labelsRegistered_ofSwitch _ _ _ _).count⟩

/-- Short names keep the texts of a run small. -/
def tersely : Config where
  naming := { ({} : Naming) with reducerFunctionSuffix := "R" }
  creators :=
    { ({} : CreatorNames) with on := "o", createReducer := "c", tableName := "t", eventType := "E" }
  library := []

/-- One label waits for another. -/
def sharedClause : Project :=
  ofSources ⟨""⟩ {}
    [(⟨"a.ts"⟩,
      "import\x7bo\x7dfrom'';function R(s=0,a)\x7bswitch(a)\x7bcase 0:case 1:return 1\x7d\x7d")]

theorem labels_registered_sharedClause :
    ∃ (reading : ReducerReading) (changes : ReducerChanges) (after : Project),
      reading.IsOf tersely ⟨"a.ts"⟩ sharedClause ∧
      migrateReducer tersely ⟨"a.ts"⟩ none sharedClause = .ok (.migrated changes) after ∧
      reading.clauses.map SwitchClause.labels = [["0", "1"]] ∧
      changes.clauses = 1 ∧ changes.registrations = 1 := by
  have found : ∃ unit ∈ sharedClause.unit? ⟨"a.ts"⟩,
      ∃ declaration ∈ reducingFunction? tersely.naming unit,
      ∃ switch ∈ switchOf? declaration.node,
        (SwitchClause.ofSwitch unit (ReducerSignature.ofFunction unit declaration.node)
          switch).map (fun clause => (clause.preceding, clause.label)) = [(["0"], "1")] := by
    decide +kernel
  obtain ⟨unit, found, declaration, function, switch, first, clauses⟩ := found
  have read : (ReducerReading.mk unit declaration switch).IsOf tersely ⟨"a.ts"⟩ sharedClause :=
    ⟨found, function, first⟩
  have succeeds : succeedsWith
      (fun outcome _ => match outcome with
        | .migrated _ => true
        | .skipped _ => false)
      (migrateReducer tersely ⟨"a.ts"⟩ none sharedClause) = true := by
    decide +kernel
  obtain ⟨outcome, after, ran, migrated⟩ := exists_of_succeedsWith succeeds
  cases outcome with
  | skipped => cases migrated
  | migrated changes =>
    obtain ⟨number, registered⟩ := (labels_registered tersely).2 _ _ _ changes after _ read ran
    have labels := congrArg (List.map fun read => read.1 ++ [read.2]) clauses
    have lengths := congrArg (List.map fun read => read.1.length / arityLimit + 1) clauses
    rw [List.map_map] at labels lengths
    have alone := (List.length_map _).symm.trans (congrArg List.length clauses)
    exact ⟨_, changes, after, read, ran, labels, number.trans alone,
      registered.trans (congrArg List.sum lengths)⟩

end CreatorMigration
