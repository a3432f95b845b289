import CreatorMigration.Proofs.Migration.Registration
import CreatorMigration.Proofs.Migration.Removals

/-! # Discriminators

A class of actions is told apart by a member of an enum, and its factory is given the value of that
member. `discriminators_survive_iff` says when this is the value which the enum that the class names
gives to the member: the plan of a unit looks all members up in the first enum.
-/

namespace CreatorMigration

open Project Update

/-- What holds of each pair of two lists is a matter of the first list alone where the second one
depends on it. -/
theorem forall₂_iff_forall_mem {α β : Type} {relates holds : α → β → Prop} {decides : α → Prop}
    {inputs : List α} {outputs : List β} (related : List.Forall₂ relates inputs outputs)
    (pointwise : ∀ input output, relates input output → (holds input output ↔ decides input)) :
    List.Forall₂ holds inputs outputs ↔ ∀ input ∈ inputs, decides input := by
  induction related with
  | nil => simp
  | cons first _ inductionHypothesis =>
    rw [List.forall₂_cons, List.forall_mem_cons, pointwise _ _ first, inductionHypothesis]

/-! ## What a unit declares -/

namespace SourceUnit

/-- An enum of the unit gives a value to a member. -/
def DeclaresValue (unit : SourceUnit) (enum member value : String) : Prop :=
  ∃ declaration ∈ unit.declarationsOfKind .enum, unit.nameOf? declaration = some enum ∧
    (unit.actionTypes declaration.node).find? member = some value

instance (unit : SourceUnit) (enum member value : String) :
    Decidable (unit.DeclaresValue enum member value) :=
  inferInstanceAs (Decidable (∃ declaration ∈ _, _ ∧ _))

/-- A class is told apart by a member of an enum. -/
structure TellsApart (unit : SourceUnit) (naming : Naming) (declaration : Declaration)
    (read : ActionClass) (enum member : String) : Prop where
  isRead : unit.actionClass? naming declaration = some read
  byMember : read.discriminator = some (.member enum member)

/-- Where a table has a value for a member that a class is told apart by, the enum that the class
names gives it that value, too. -/
def Agrees (unit : SourceUnit) (naming : Naming) (types : ActionTypes) (declaration : Declaration) :
    Prop :=
  ∀ read enum member value, unit.TellsApart naming declaration read enum member →
    types.find? member = some value → unit.DeclaresValue enum member value

/-- The first enum of the unit agrees with the enums that the classes name. -/
def FirstEnumAgrees (unit : SourceUnit) (naming : Naming) : Prop :=
  ∀ first ∈ (unit.declarationsOfKind .enum).head?,
    ∀ declaration ∈ unit.declarationsOfKind .classLike,
      unit.Agrees naming (unit.actionTypes first.node) declaration

end SourceUnit

/-! ## What a plan writes -/

/-- The edit that puts a factory with a value in the place of a class. -/
def factoryEdit (creators : CreatorNames) (declaration : Declaration) (read : ActionClass)
    (value : String) : Edit :=
  ⟨declaration.statement.node.span,
    FactoryPlan.factoryDeclaration creators declaration.exported (Text.decapitalize read.name) value
      read.parameters.head?⟩

/-- Factories with different values are declared by different texts. -/
theorem factoryEdit_inj {creators : CreatorNames} {declaration : Declaration} {read : ActionClass}
    {value other : String}
    (same : factoryEdit creators declaration read value =
      factoryEdit creators declaration read other) : value = other := by
  have replacements := congrArg Edit.replacement same
  simpa [factoryEdit, FactoryPlan.factoryDeclaration] using replacements

theorem FactoryPlan.discriminate_eq_ok_iff {naming : Naming} {types : ActionTypes}
    {read : ActionClass} {enum name : String}
    (told : read.discriminator = some (.member enum name)) {member : Option String}
    {value : String} :
    discriminate naming types read = .ok (member, value) ↔
      some name = member ∧ types.find? name = some value := by
  unfold discriminate
  rw [told]
  dsimp only
  cases types.find? name <;> simp

theorem FactoryPlan.exists_malformed_of_ofDeclaration_eq_error {config : Config}
    {unit : SourceUnit} {types : ActionTypes} {declaration : Declaration} {reason : SkipReason}
    (failed : ofDeclaration config unit types declaration = .error reason) :
    ∃ detail, reason = .malformed detail := by
  unfold ofDeclaration at failed
  split at failed
  · exact ⟨_, (Except.error.inj failed).symm⟩
  · next read _ =>
    cases told : discriminate config.naming types read with
    | ok parts => simp [told, bind, Except.bind, pure, Except.pure] at failed
    | error other =>
      simp only [told, bind, Except.bind, Except.error.injEq] at failed
      unfold discriminate at told
      split at told
      · split at told
        · cases told
        · exact ⟨_, (failed ▸ Except.error.inj told).symm⟩
      · cases told
      · exact ⟨_, (failed ▸ Except.error.inj told).symm⟩
      · exact ⟨_, (failed ▸ Except.error.inj told).symm⟩

namespace UnitPlan

variable {config : Config} {pattern : Pattern} {unit : SourceUnit} {plan : UnitPlan}

/-- The classes of a unit are replaced by factories one by one, each with the value that the plan
found for it. -/
theorem forall₂_classEdits (planned : ofUnit config pattern unit = .ok plan) :
    List.Forall₂ (fun declaration edit =>
      ∃ read member value, unit.actionClass? config.naming declaration = some read ∧
        FactoryPlan.discriminate config.naming plan.types read = .ok (member, value) ∧
        edit = factoryEdit config.creators declaration read value)
      (unit.declarationsOfKind .classLike) plan.classEdits := by
  obtain ⟨_, _, _, _, _, _, classes, _⟩ := ofUnit_eq_ok_iff.1 planned
  rw [classEdits, List.forall₂_map_right_iff]
  refine classes.imp fun declaration entry ofDeclaration => ?_
  obtain ⟨read, member, value, reads, told, rfl⟩ :=
    FactoryPlan.ofDeclaration_eq_ok_iff.1 ofDeclaration
  exact ⟨read, member, value, reads, told, rfl⟩

theorem exists_malformed_of_ofUnit_eq_error {reason : SkipReason}
    (enums : unit.declarationsOfKind .enum ≠ []) (classes : unit.declarationsOfKind .classLike ≠ [])
    (refused : ofUnit config pattern unit = .error reason) :
    ∃ detail, reason = .malformed detail := by
  unfold ofUnit at refused
  cases enumsOf : unit.declarationsOfKind .enum with
  | nil => exact absurd enumsOf enums
  | cons first rest =>
    cases classesOf : unit.declarationsOfKind .classLike with
    | nil => exact absurd classesOf classes
    | cons firstClass otherClasses =>
      rw [enumsOf, classesOf] at refused
      dsimp only at refused
      -- with an enum and a class there, only a missing name or a class can refuse the unit
      cases named : unit.nameOf? first with
      | none =>
        rw [named] at refused
        exact ⟨_, (Except.error.inj refused).symm⟩
      | some enum =>
        rw [named] at refused
        dsimp only at refused
        cases mapped : (firstClass :: otherClasses).mapM
            (FactoryPlan.ofDeclaration config unit (unit.actionTypes first.node)) with
        | ok plans => simp [mapped, bind, Except.bind, pure, Except.pure] at refused
        | error other =>
          simp only [mapped, bind, Except.bind, Except.error.injEq] at refused
          obtain ⟨declaration, _, failed⟩ := exists_of_mapM_eq_error mapped
          exact refused ▸ FactoryPlan.exists_malformed_of_ofDeclaration_eq_error failed

/-- A plan writes the values of the enums that the classes name exactly when the first enum agrees
with those. -/
theorem forall₂_classEdits_iff (planned : ofUnit config pattern unit = .ok plan) :
    List.Forall₂ (fun declaration edit => ∀ read enum member,
        unit.TellsApart config.naming declaration read enum member →
          ∃ value, unit.DeclaresValue enum member value ∧
            edit = factoryEdit config.creators declaration read value)
      (unit.declarationsOfKind .classLike) plan.classEdits ↔
      unit.FirstEnumAgrees config.naming := by
  obtain ⟨_, first, rest, enums, _, types, _⟩ := ofUnit_eq_ok_iff.1 planned
  have agrees : unit.FirstEnumAgrees config.naming ↔
      ∀ declaration ∈ unit.declarationsOfKind .classLike,
        unit.Agrees config.naming plan.types declaration := by
    rw [SourceUnit.FirstEnumAgrees, enums, types]
    simp
  rw [agrees]
  refine forall₂_iff_forall_mem (forall₂_classEdits planned) ?_
  rintro declaration _ ⟨read, _, found, reads, told, rfl⟩
  -- the class is read in one way, and so is the value that is found for it
  have sole {other : ActionClass} {enum member : String}
      (tells : unit.TellsApart config.naming declaration other enum member) :
      other = read ∧ plan.types.find? member = some found := by
    obtain rfl : other = read := Option.some.inj (tells.isRead.symm.trans reads)
    exact ⟨rfl, ((FactoryPlan.discriminate_eq_ok_iff tells.byMember).1 told).2⟩
  constructor
  · intro writes other enum member value tells has
    obtain ⟨rfl, foundThen⟩ := sole tells
    cases foundThen.symm.trans has
    obtain ⟨declared, declares, same⟩ := writes other enum member tells
    rwa [factoryEdit_inj same]
  · intro agrees other enum member tells
    obtain ⟨rfl, foundThen⟩ := sole tells
    exact ⟨found, agrees other enum member found tells foundThen, rfl⟩

/-- The edits of the classes are carried out: each factory stands between what was in front of its
class and what was behind it, where the other classes may be replaced, too. -/
def ReplacesClasses (plan : UnitPlan) (path : Path) (project : Project) (unit : SourceUnit) : Prop :=
  ∃ declared changed, Update.apply path plan.classEdits project = .ok () declared ∧
    declared.unit? path = some changed ∧ ∀ edit ∈ plan.classEdits, ∃ earlier later,
      changed.text = Edit.spliceTo unit.text edit.span.start 0 earlier ++ edit.replacement ++
        Edit.splice unit.text edit.span.stop later

theorem replacesClasses {path : Path} {project : Project} (found : project.unit? path = some unit)
    (planned : ofUnit config pattern unit = .ok plan) : plan.ReplacesClasses path project unit := by
  obtain ⟨_, declared, applied⟩ := not_fails_iff.1 (not_fails_classEdits found planned)
  obtain ⟨other, changed, foundOther, changes, foundChanged⟩ :=
    unit?_of_apply (apply_eq_ok_iff.1 applied)
  obtain rfl : unit = other := Option.some.inj (found.symm.trans foundOther)
  refine ⟨declared, changed, applied, foundChanged, fun edit member => ?_⟩
  obtain ⟨earlier, later, _, split⟩ := Edit.exists_of_applyAll
    (SourceUnit.text_of_apply changes (List.ne_nil_of_mem member)) member
  exact ⟨earlier, later, split⟩

end UnitPlan

/-! ## The migration -/

/-- The discriminators of a unit of actions survive its migration. -/
structure DiscriminatorsSurvive (config : Config) (pattern : Pattern) (path : Path)
    (project : Project) (unit : SourceUnit) : Prop where
  /-- Each class is replaced by a factory. The factory of a class that is told apart by a member of an
  enum has the value that the enum gives to the member. -/
  written : ∀ plan, UnitPlan.ofUnit config pattern unit = .ok plan →
    plan.ReplacesClasses path project unit ∧ List.Forall₂ (fun declaration edit => ∀ read enum member,
        unit.TellsApart config.naming declaration read enum member →
          ∃ value, unit.DeclaresValue enum member value ∧
            edit = factoryEdit config.creators declaration read value)
      (unit.declarationsOfKind .classLike) plan.classEdits
  /-- A unit with an enum is skipped when the enum that a class names has no value for the member. -/
  refused : unit.declarationsOfKind .enum ≠ [] →
    (∃ declaration ∈ unit.declarationsOfKind .classLike, ∃ read enum member,
      unit.TellsApart config.naming declaration read enum member ∧
        ∀ value, ¬ unit.DeclaresValue enum member value) →
    ∃ detail, migrateActions config pattern path project =
      .ok (.skipped (.malformed detail)) project

/-- The discriminators of a unit survive exactly when the plan refuses the unit, or the first enum of
the unit agrees with the enums that the classes name. -/
theorem discriminators_survive_iff {config : Config} {pattern : Pattern} {path : Path}
    {project : Project} {unit : SourceUnit} (found : project.unit? path = some unit) :
    DiscriminatorsSurvive config pattern path project unit ↔
      ((∃ plan, UnitPlan.ofUnit config pattern unit = .ok plan) →
        unit.FirstEnumAgrees config.naming) := by
  constructor
  · rintro survive ⟨plan, planned⟩
    exact (UnitPlan.forall₂_classEdits_iff planned).1 (survive.written plan planned).2
  · intro agrees
    refine ⟨fun plan planned => ?_, ?_⟩
    · exact ⟨UnitPlan.replacesClasses found planned,
        (UnitPlan.forall₂_classEdits_iff planned).2 (agrees ⟨plan, planned⟩)⟩
    · rintro enums ⟨declaration, member, read, enum, name, tells, undeclared⟩
      rw [migrateActions_eq, found]
      dsimp only
      cases planned : UnitPlan.ofUnit config pattern unit with
      | error reason =>
        obtain ⟨detail, rfl⟩ := UnitPlan.exists_malformed_of_ofUnit_eq_error enums
          (List.ne_nil_of_mem member) planned
        exact ⟨detail, rfl⟩
      -- each class of a plan has a value, and the enum that it names gives it
      | ok plan =>
        have writes := (UnitPlan.forall₂_classEdits_iff planned).2 (agrees ⟨plan, planned⟩)
        obtain ⟨_, _, written⟩ := exists_related_of_mem writes member
        obtain ⟨value, declares, _⟩ := written read enum name tells
        exact absurd declares (undeclared value)

/-- The class names a member of the second enum, and the first enum has a member of that name. -/
def twoEnums : Project :=
  ofSources ⟨""⟩ {}
    [(⟨"a.ts"⟩, "enum A\x7bL='a'\x7denum B\x7bL='b'\x7dclass X\x7btype=B.L\x7d")]

theorem discriminators_survive_iff_twoEnums :
    ∃ pattern unit, ({} : Config).aliasPattern? = some pattern ∧
      twoEnums.unit? ⟨"a.ts"⟩ = some unit ∧
      (DiscriminatorsSurvive {} pattern ⟨"a.ts"⟩ twoEnums unit ↔
        ((∃ plan, UnitPlan.ofUnit {} pattern unit = .ok plan) →
          unit.FirstEnumAgrees ({} : Config).naming)) := by
  have found : ∃ pattern ∈ ({} : Config).aliasPattern?, ∃ unit ∈ twoEnums.unit? ⟨"a.ts"⟩, True := by
    decide +kernel
  obtain ⟨pattern, compiled, unit, found, _⟩ := found
  exact ⟨pattern, unit, compiled, found, discriminators_survive_iff found⟩

/-- The factory of the class is given the value of the first enum. -/
theorem not_discriminators_survive_twoEnums :
    ∃ pattern unit plan, ({} : Config).aliasPattern? = some pattern ∧
      twoEnums.unit? ⟨"a.ts"⟩ = some unit ∧ UnitPlan.ofUnit {} pattern unit = .ok plan ∧
      plan.classEdits.map Edit.replacement = ["const x = createAction('a');"] ∧
      unit.DeclaresValue "B" "L" "'b'" ∧
      ¬ DiscriminatorsSurvive {} pattern ⟨"a.ts"⟩ twoEnums unit := by
  have found : ∃ pattern ∈ ({} : Config).aliasPattern?, ∃ unit ∈ twoEnums.unit? ⟨"a.ts"⟩,
      ∃ plan ∈ (UnitPlan.ofUnit {} pattern unit).toOption,
        plan.classEdits.map Edit.replacement = ["const x = createAction('a');"] ∧
        unit.DeclaresValue "B" "L" "'b'" ∧ ¬ unit.DeclaresValue "B" "L" "'a'" ∧
        (∃ first ∈ (unit.declarationsOfKind .enum).head?,
          (unit.actionTypes first.node).find? "L" = some "'a'") ∧
        ∃ declaration ∈ unit.declarationsOfKind .classLike,
          ∃ read ∈ unit.actionClass? ({} : Config).naming declaration,
            read.discriminator = some (.member "B" "L") := by
    decide +kernel
  obtain ⟨pattern, compiled, unit, found, plan, planned, writes, declared, undeclared,
    ⟨first, isFirst, has⟩, declaration, member, read, reads, told⟩ := found
  have planned : UnitPlan.ofUnit {} pattern unit = .ok plan := by
    cases result : UnitPlan.ofUnit {} pattern unit with
    | error => simp [result, Except.toOption] at planned
    | ok other => simpa [result, Except.toOption] using planned
  refine ⟨pattern, unit, plan, compiled, found, planned, writes, declared, fun survive => ?_⟩
  have agrees := (UnitPlan.forall₂_classEdits_iff planned).1 (survive.written plan planned).2
  exact undeclared (agrees first isFirst declaration member read "B" "L" "'a'" ⟨reads, told⟩ has)

end CreatorMigration
