import CreatorMigration.Preflight
import CreatorMigration.Proofs.Migration.Discriminators

/-! # Checks and plans

The checks before a run and the plan of a migration read the same classes in two ways: the checks
look the members that tell classes apart up in all enums of a unit, by both names, and the plan looks
them up in the first enum, by the name of the member alone.

`gate_covers_iff` says for which projects a passed inspection keeps the plans from refusing a unit.
-/

namespace CreatorMigration

open Project Update

/-! ## Refused plans -/

namespace FactoryPlan

variable {config : Config} {unit : SourceUnit} {types : ActionTypes} {declaration : Declaration}

theorem exists_discriminate_iff {naming : Naming} {read : ActionClass} :
    (∃ parts, discriminate naming types read = .ok parts) ↔
      (∃ enum member value, read.discriminator = some (.member enum member) ∧
        types.find? member = some value) ∨
      ∃ text, read.discriminator = some (.literal text) := by
  unfold discriminate
  cases read.discriminator with
  | none => simp
  | some discriminator =>
    cases discriminator with
    | member enum name => cases found : types.find? name <;> simp [found]
    | literal text => simp
    | other text => simp

/-- A class is refused that cannot be read or cannot be told apart. -/
theorem exists_ofDeclaration_eq_error_iff :
    (∃ reason, ofDeclaration config unit types declaration = .error reason) ↔
      unit.actionClass? config.naming declaration = none ∨
        ∃ read, unit.actionClass? config.naming declaration = some read ∧
          ¬ ∃ parts, discriminate config.naming types read = .ok parts := by
  unfold ofDeclaration
  cases unit.actionClass? config.naming declaration with
  | none => simp
  | some read =>
    cases told : discriminate config.naming types read with
    | error => simp [told, bind, Except.bind]
    | ok parts =>
      obtain ⟨member, literal⟩ := parts
      simp [told, bind, Except.bind, pure, Except.pure]

end FactoryPlan

namespace UnitPlan

variable {config : Config} {pattern : Pattern} {unit : SourceUnit}

/-- Only a unit with an enum and with classes is malformed. -/
theorem exists_enum_of_ofUnit_eq_malformed {detail : String}
    (refused : ofUnit config pattern unit = .error (.malformed detail)) :
    (∃ first rest, unit.declarationsOfKind .enum = first :: rest) ∧
      unit.declarationsOfKind .classLike ≠ [] := by
  unfold ofUnit at refused
  split at refused
  · split at refused <;> cases refused
  · cases refused
  · cases refused
  · next first rest enums notBoth =>
    exact ⟨⟨first, rest, enums⟩, notBoth⟩

/-- It is malformed when its first enum has no name or one of its classes is refused. -/
theorem exists_ofUnit_eq_malformed_iff :
    (∃ detail, ofUnit config pattern unit = .error (.malformed detail)) ↔
      ∃ first rest, unit.declarationsOfKind .enum = first :: rest ∧
        unit.declarationsOfKind .classLike ≠ [] ∧
        (unit.nameOf? first = none ∨ ∃ declaration ∈ unit.declarationsOfKind .classLike,
          ∃ reason, FactoryPlan.ofDeclaration config unit (unit.actionTypes first.node)
            declaration = .error reason) := by
  constructor
  · rintro ⟨detail, refused⟩
    obtain ⟨⟨first, rest, enums⟩, classes⟩ := exists_enum_of_ofUnit_eq_malformed refused
    refine ⟨first, rest, enums, classes, ?_⟩
    by_contra accepted
    rw [not_or] at accepted
    obtain ⟨enum, named⟩ := Option.ne_none_iff_exists'.1 accepted.1
    -- a unit of which nothing is refused has a plan
    cases mapped : (unit.declarationsOfKind .classLike).mapM
        (FactoryPlan.ofDeclaration config unit (unit.actionTypes first.node)) with
    | error reason =>
      obtain ⟨declaration, member, failed⟩ := exists_of_mapM_eq_error mapped
      exact accepted.2 ⟨declaration, member, reason, failed⟩
    | ok plans =>
      have planned : ofUnit config pattern unit = .ok
          ⟨enum, unit.actionTypes first.node, plans, AliasPlan.ofUnit pattern unit⟩ :=
        ofUnit_eq_ok_iff.2
          ⟨classes, first, rest, enums, named, rfl, mapM_eq_ok_iff.1 mapped, rfl⟩
      cases planned.symm.trans refused
  · rintro ⟨first, rest, enums, classes, refuses⟩
    cases planned : ofUnit config pattern unit with
    | error reason =>
      obtain ⟨detail, rfl⟩ := exists_malformed_of_ofUnit_eq_error (by simp [enums]) classes planned
      exact ⟨detail, rfl⟩
    | ok plan =>
      obtain ⟨_, other, others, enumsThen, named, types, entries, _⟩ := ofUnit_eq_ok_iff.1 planned
      obtain ⟨rfl, rfl⟩ := List.cons.inj (enums.symm.trans enumsThen)
      rcases refuses with unnamed | ⟨declaration, member, reason, failed⟩
      · cases unnamed.symm.trans named
      · obtain ⟨entry, _, made⟩ := exists_related_of_mem entries member
        rw [types, failed] at made
        cases made

end UnitPlan

/-! ## Passed inspections -/

namespace Preflight

variable {config : Config} {project : Project} {unit : SourceUnit}

/-- Whether the classes of the unit are inspected at all. -/
def inspectsClasses (config : Config) (unit : SourceUnit) : Bool :=
  isChecked config unit && decide (StorePart.ofPath config.naming unit.path = .declaration) &&
    !unit.calls config.creators.createAction

/-- A passed inspection has found nothing wrong with a class that is inspected. -/
theorem classViolations_of_passed (passed : (inspect config project).passed = true)
    (member : unit ∈ project.units) (inspects : inspectsClasses config unit = true)
    {declaration : Declaration} (classMember : declaration ∈ unit.declarationsOfKind .classLike) :
    classViolations config unit (enumsOf unit) declaration = [] := by
  rw [inspectsClasses, Bool.and_eq_true, Bool.and_eq_true, decide_eq_true_iff,
    Bool.not_eq_true'] at inspects
  obtain ⟨⟨checked, isDeclaration⟩, fresh⟩ := inspects
  have noneIn : unitViolations config unit = [] := by
    have all : (project.units.filter (isChecked config)).flatMap (unitViolations config) = [] :=
      List.isEmpty_iff.1 passed
    exact List.flatMap_eq_nil_iff.1 all unit (List.mem_filter.2 ⟨member, checked⟩)
  have ofActions := (List.append_eq_nil_iff.1 noneIn).2
  rw [actionViolations, if_pos ⟨isDeclaration, by simp [fresh]⟩] at ofActions
  exact List.flatMap_eq_nil_iff.1 ofActions declaration classMember

/-- In a passed inspection every class that is inspected is told apart by a member of an enum of its
unit. -/
theorem declares_of_passed (passed : (inspect config project).passed = true)
    (member : unit ∈ project.units) (inspects : inspectsClasses config unit = true)
    {declaration : Declaration} (classMember : declaration ∈ unit.declarationsOfKind .classLike)
    {read : ActionClass} (isRead : unit.actionClass? config.naming declaration = some read) :
    ∃ enum name, read.discriminator = some (.member enum name) ∧
      declares (enumsOf unit) enum name = true := by
  have noneOfClass := classViolations_of_passed passed member inspects classMember
  have noFault : discriminatorFault? config (enumsOf unit) read = none := by
    simp only [classViolations, isRead, List.map_eq_nil_iff, List.append_eq_nil_iff,
      Option.toList_eq_nil_iff] at noneOfClass
    exact noneOfClass.1
  unfold discriminatorFault? at noFault
  split at noFault
  · next enum name told =>
    split at noFault
    · next declared => exact ⟨enum, name, told, declared⟩
    · cases noFault
  · cases noFault

/-- In a passed inspection no constructor of a class that is inspected takes two parameters. -/
theorem length_parameters_of_passed (passed : (inspect config project).passed = true)
    (member : unit ∈ project.units) (inspects : inspectsClasses config unit = true)
    {declaration : Declaration} (classMember : declaration ∈ unit.declarationsOfKind .classLike)
    {read : ActionClass} (isRead : unit.actionClass? config.naming declaration = some read) :
    read.parameters.length ≤ 1 := by
  have noneOfClass := classViolations_of_passed passed member inspects classMember
  simp only [classViolations, isRead, List.map_eq_nil_iff, List.append_eq_nil_iff,
    Option.toList_eq_nil_iff] at noneOfClass
  have noFault := noneOfClass.2
  unfold constructorFault? at noFault
  split at noFault
  · cases noFault
  · next few => exact Nat.not_lt.1 few

end Preflight

/-! ## What gets through -/

/-- How a class that the plan refuses gets through the checks. -/
inductive EscapesGate (config : Config) (unit : SourceUnit) (types : ActionTypes)
    (declaration : Declaration) : Prop where
  /-- The checks pass over classes that they cannot read. -/
  | unread (notRead : unit.actionClass? config.naming declaration = none)
  /-- The enum of the plan has no value for the member, but another enum is named and has one, or
  nobody looks. -/
  | otherEnum {read : ActionClass} {enum member : String}
      (tells : unit.TellsApart config.naming declaration read enum member)
      (missing : types.find? member = none)
      (known : Preflight.inspectsClasses config unit = true →
        Preflight.declares (Preflight.enumsOf unit) enum member = true)
  /-- Nothing tells the class apart, and nobody looks. -/
  | notInspected {read : ActionClass}
      (isRead : unit.actionClass? config.naming declaration = some read)
      (passedOver : Preflight.inspectsClasses config unit = false)
      (byMember : ∀ enum member, read.discriminator ≠ some (.member enum member))
      (byLiteral : ∀ text, read.discriminator ≠ some (.literal text))

/-- Where the inspection has passed, the plan refuses the classes that get through the checks. -/
theorem exists_ofDeclaration_eq_error_iff_escapesGate {config : Config} {project : Project}
    (passed : (Preflight.inspect config project).passed = true) {unit : SourceUnit}
    (member : unit ∈ project.units) {types : ActionTypes} {declaration : Declaration}
    (classMember : declaration ∈ unit.declarationsOfKind .classLike) :
    (∃ reason, FactoryPlan.ofDeclaration config unit types declaration = .error reason) ↔
      EscapesGate config unit types declaration := by
  rw [FactoryPlan.exists_ofDeclaration_eq_error_iff]
  simp only [FactoryPlan.exists_discriminate_iff, not_or, not_exists, not_and]
  constructor
  · rintro (notRead | ⟨read, isRead, byMember, byLiteral⟩)
    · exact .unread notRead
    -- an inspected class is told apart by a member that some enum declares, if not by the first one
    cases inspects : Preflight.inspectsClasses config unit with
    | true =>
      obtain ⟨enum, name, told, declared⟩ :=
        Preflight.declares_of_passed passed member inspects classMember isRead
      refine .otherEnum ⟨isRead, told⟩ (Option.eq_none_iff_forall_ne_some.2 fun value has => ?_)
        fun _ => declared
      exact byMember enum name value told has
    | false =>
      by_cases told : ∃ enum name, read.discriminator = some (.member enum name)
      · obtain ⟨enum, name, told⟩ := told
        refine .otherEnum ⟨isRead, told⟩ (Option.eq_none_iff_forall_ne_some.2 fun value has => ?_)
          fun looks => ?_
        · exact byMember enum name value told has
        · exact absurd (inspects.symm.trans looks) Bool.false_ne_true
      · exact .notInspected isRead inspects (fun enum name same => told ⟨enum, name, same⟩)
          byLiteral
  · rintro (notRead | ⟨⟨isRead, told⟩, missing, _⟩ | ⟨isRead, _, byMember, byLiteral⟩)
    · exact .inl notRead
    · refine .inr ⟨_, isRead, ?_, ?_⟩
      · rintro enum name value toldThen has
        cases told.symm.trans toldThen
        exact absurd (missing.symm.trans has) (Option.some_ne_none value).symm
      · rintro text toldThen
        cases told.symm.trans toldThen
    · exact .inr ⟨_, isRead, fun enum name _ same => absurd same (byMember enum name), byLiteral⟩

/-! ## The gate -/

/-- No class of the unit gets through the checks to be refused, nor does its first enum. -/
def SourceUnit.NothingEscapes (unit : SourceUnit) (config : Config) : Prop :=
  ∀ first ∈ (unit.declarationsOfKind .enum).head?,
    ∀ declaration ∈ unit.declarationsOfKind .classLike,
      unit.nameOf? first ≠ none ∧
        ¬ EscapesGate config unit (unit.actionTypes first.node) declaration

/-- A passed inspection promises that no unit of actions of a store is malformed. -/
def GateCovers (config : Config) (pattern : Pattern) (project : Project) : Prop :=
  (Preflight.inspect config project).passed = true →
    ∀ store ∈ Store.discover config.naming project, ∀ detail result,
      migrateActions config pattern store.declaration project ≠
        .ok (.skipped (.malformed detail)) result

/-- The migration calls a unit malformed that its plan calls so, and leaves it alone. -/
theorem migrateActions_eq_malformed_iff {config : Config} {pattern : Pattern} {path : Path}
    {project result : Project} {detail : String} :
    migrateActions config pattern path project = .ok (.skipped (.malformed detail)) result ↔
      project = result ∧ ∃ unit, project.unit? path = some unit ∧
        UnitPlan.ofUnit config pattern unit = .error (.malformed detail) := by
  rw [migrateActions_eq]
  cases project.unit? path with
  | none => simp
  | some unit =>
    cases planned : UnitPlan.ofUnit config pattern unit with
    | error reason => simp [planned, and_comm]
    | ok plan =>
      simp only [planned, Option.some.injEq, exists_eq_left', reduceCtorEq, and_false, iff_false]
      intro ran
      obtain ⟨_, _, _, answered⟩ := bind_eq_ok_iff.1 ran
      cases (pure_eq_ok_iff.1 answered).1

/-- A passed inspection keeps its promise exactly when, in the unit of actions of each store, the
first enum has a name and no class gets through the checks that the plan refuses: one without a name
or a body, one that is told apart by a member that only another enum of the unit declares, or one of
a unit whose classes are not inspected. -/
theorem gate_covers_iff {config : Config} {pattern : Pattern} {project : Project} :
    GateCovers config pattern project ↔
      ((Preflight.inspect config project).passed = true →
        ∀ store ∈ Store.discover config.naming project, ∀ unit,
          project.unit? store.declaration = some unit → unit.NothingEscapes config) := by
  refine forall_congr' fun passed => forall₂_congr fun store _ => ?_
  simp only [ne_eq, migrateActions_eq_malformed_iff, not_and, not_exists]
  constructor
  · intro covers unit found first isFirst declaration classMember
    have member := (project.unit?_eq_some_iff.1 found).1
    obtain ⟨rest, enums⟩ := List.head?_eq_some_iff.1 isFirst
    -- a refused class or an unnamed enum would make the unit malformed, which the promise excludes
    have planned (refuses : unit.nameOf? first = none ∨
        ∃ declaration ∈ unit.declarationsOfKind .classLike, ∃ reason,
          FactoryPlan.ofDeclaration config unit (unit.actionTypes first.node) declaration =
            .error reason) : False := by
      have malformed : ∃ detail, UnitPlan.ofUnit config pattern unit = .error (.malformed detail) :=
        UnitPlan.exists_ofUnit_eq_malformed_iff.2
          ⟨first, rest, enums, List.ne_nil_of_mem classMember, refuses⟩
      obtain ⟨detail, refused⟩ := malformed
      exact covers detail project rfl unit found refused
    refine ⟨fun unnamed => planned (.inl unnamed), fun escapes => planned (.inr ?_)⟩
    exact ⟨declaration, classMember,
      (exists_ofDeclaration_eq_error_iff_escapesGate passed member classMember).2 escapes⟩
  · rintro escapes detail result rfl unit found refused
    have member := (project.unit?_eq_some_iff.1 found).1
    obtain ⟨first, rest, enums, classes, refuses⟩ :=
      UnitPlan.exists_ofUnit_eq_malformed_iff.1 ⟨detail, refused⟩
    have isFirst : first ∈ (unit.declarationsOfKind .enum).head? := by simp [enums]
    rcases refuses with unnamed | ⟨declaration, classMember, failed⟩
    · obtain ⟨declaration, classMember⟩ := List.exists_mem_of_ne_nil _ classes
      exact (escapes unit found first isFirst declaration classMember).1 unnamed
    · exact (escapes unit found first isFirst declaration classMember).2
        ((exists_ofDeclaration_eq_error_iff_escapesGate passed member classMember).1 failed)

/-- The class of the store is told apart by a member of the second enum. -/
def secondEnum : Project :=
  ofSources ⟨""⟩ {}
    [(⟨"store/x/x.actions.ts"⟩,
      "enum A\x7bK='k'\x7denum B\x7bL='b'\x7dclass X\x7btype=B.L\x7d")]

/-- The inspection passes, and the unit is skipped as malformed. -/
theorem not_gate_covers_secondEnum :
    (∀ unit ∈ secondEnum.units, Tree.hasErrors unit.text = false) ∧
      (Preflight.inspect {} secondEnum).passed = true ∧
      ∃ pattern store, ({} : Config).aliasPattern? = some pattern ∧
        store ∈ Store.discover ({} : Config).naming secondEnum ∧
        migrateActions {} pattern store.declaration secondEnum =
          .ok (.skipped (.malformed "class X refers to unknown action type L")) secondEnum ∧
        ¬ GateCovers {} pattern secondEnum := by
  have runs : (∀ unit ∈ secondEnum.units, Tree.hasErrors unit.text = false) ∧
      (Preflight.inspect {} secondEnum).passed = true ∧
      ∃ pattern ∈ ({} : Config).aliasPattern?,
        ∃ store ∈ Store.discover ({} : Config).naming secondEnum,
          ∃ unit ∈ secondEnum.unit? store.declaration,
            (UnitPlan.ofUnit {} pattern unit).map (fun _ => ()) =
              .error (.malformed "class X refers to unknown action type L") := by
    decide +kernel
  obtain ⟨parsed, passed, pattern, compiled, store, discovered, unit, found, refused⟩ := runs
  have skipped : migrateActions {} pattern store.declaration secondEnum =
      .ok (.skipped (.malformed "class X refers to unknown action type L")) secondEnum := by
    refine migrateActions_eq_malformed_iff.2 ⟨rfl, unit, found, ?_⟩
    cases planned : UnitPlan.ofUnit {} pattern unit with
    | error reason =>
      rw [planned] at refused
      exact congrArg Except.error (Except.error.inj refused)
    | ok plan =>
      rw [planned] at refused
      cases refused
  exact ⟨parsed, passed, pattern, store, compiled, discovered, skipped,
    fun covers => covers passed store discovered _ _ skipped⟩

end CreatorMigration
