import CreatorMigration.Proofs.Migration.FactoryNames
import CreatorMigration.Proofs.Migration.Stages
import CreatorMigration.Proofs.Unit.Declared

/-! # Exports of a migrated unit

The migration puts factories in the place of the classes of a unit and removes its enum and its
alias. Where a statement of the unit exported a class it exports the factory, but a list of exports
stays as it was.

* `UnitPlan.readsAsWritten` says that the changed texts are read as they were written.
* `UnitPlan.ExportsFollow` says what the exports of the unit are to become.
* `exportsFollow_iff` says that they do so exactly when no list names what is taken away.
-/

namespace CreatorMigration

open List (Forall₂)
open Node Project SourceUnit Update

/-! ## What a plan takes away -/

namespace UnitPlan

/-- The names that are removed with their declarations. -/
def removedNames (plan : UnitPlan) : List String :=
  plan.enum :: (plan.aggregate.map AliasPlan.name).toList

def takenNames (plan : UnitPlan) : List String :=
  plan.classes.map FactoryPlan.name ++ plan.removedNames

def factoryNames (plan : UnitPlan) : List String :=
  plan.classes.map fun entry => entry.factory.name

/-- What the unit no longer declares behind the migration. -/
inductive Takes (plan : UnitPlan) : DeclarationKind → String → Prop where
  | replaced {entry : FactoryPlan} (member : entry ∈ plan.classes) :
      Takes plan .classLike entry.name
  | enum : Takes plan .enum plan.enum
  | aggregate {aggregate : AliasPlan} (planned : aggregate ∈ plan.aggregate) :
      Takes plan .typeAlias aggregate.name

/-- Nothing else in the unit, and no factory, has one of the names that are taken away. -/
def HasOwnNames (plan : UnitPlan) (unit : SourceUnit) : Prop :=
  ∀ name ∈ plan.takenNames, countDeclared name unit.declared ≤ 1 ∧ name ∉ plan.factoryNames

instance (plan : UnitPlan) (unit : SourceUnit) : Decidable (plan.HasOwnNames unit) :=
  inferInstanceAs (Decidable (∀ name ∈ _, _))

namespace Takes

variable {plan : UnitPlan} {kind : DeclarationKind} {name : String}

theorem ne_variable (takes : plan.Takes kind name) : kind ≠ .variable := by
  cases takes <;> decide

/-- Classes are replaced and the others are removed. -/
theorem isClass_or_removed (takes : plan.Takes kind name) :
    kind = .classLike ∨ name ∈ plan.removedNames := by
  cases takes with
  | replaced => exact .inl rfl
  | enum => exact .inr List.mem_cons_self
  | aggregate planned =>
    exact .inr (List.mem_cons_of_mem _ (Option.mem_toList.2 (Option.mem_map_of_mem _ planned)))

theorem mem_takenNames (takes : plan.Takes kind name) : name ∈ plan.takenNames := by
  rcases takes.isClass_or_removed with rfl | isRemoved
  · obtain ⟨member⟩ := takes
    exact List.mem_append_left _ (List.mem_map_of_mem member)
  · exact List.mem_append_right _ isRemoved

end Takes

theorem exists_takes {plan : UnitPlan} {name : String} (taken : name ∈ plan.takenNames) :
    ∃ kind, plan.Takes kind name := by
  rcases List.mem_append.1 taken with member | member
  · obtain ⟨entry, entryMember, rfl⟩ := List.mem_map.1 member
    exact ⟨_, .replaced entryMember⟩
  · rcases List.mem_cons.1 member with rfl | member
    · exact ⟨_, .enum⟩
    · obtain ⟨aggregate, planned, rfl⟩ := Option.map_eq_some_iff.1 (Option.mem_toList.1 member)
      exact ⟨_, .aggregate planned⟩

end UnitPlan

/-! ## Classes and their entries -/

/-- The entry of a plan stands for the class that is declared. -/
structure FactoryPlan.StandsFor (entry : FactoryPlan) (declared : Declared) : Prop where
  isClass : declared.kind = .classLike
  sameName : declared.name = entry.name
  factoryName : entry.factory.name = Text.decapitalize entry.name
  exports : Text.hasStart "export " entry.replacement = declared.exportedAs.isSome

theorem FactoryPlan.hasStart_factoryDeclaration (creators : CreatorNames) (exported : Bool)
    (name literal : String) (payload : Option ConstructorParameter) :
    Text.hasStart "export " (factoryDeclaration creators exported name literal payload) =
      exported := by
  cases exported <;> simp [Text.hasStart, factoryDeclaration, List.isPrefixOf]

section

variable {config : Config} {pattern : Pattern} {unit : SourceUnit} {plan : UnitPlan}
  {declaration : Declaration}

theorem name_readMember {naming : Naming} {read : ActionClass} {member : Node} :
    (unit.readMember naming read member).name = read.name := by
  unfold readMember
  split
  · split <;> rfl
  · split <;> rfl
  · rfl

theorem nameOf?_of_actionClass? {naming : Naming} {read : ActionClass}
    (isRead : unit.actionClass? naming declaration = some read) :
    unit.nameOf? declaration = some read.name := by
  have folded (members : List Node) (start : ActionClass) :
      (members.foldl (unit.readMember naming) start).name = start.name := by
    induction members generalizing start with
    | nil => rfl
    | cons first rest inductionHypothesis =>
      rw [List.foldl_cons, inductionHypothesis, name_readMember]
  unfold actionClass? at isRead
  split at isRead
  · next name _ named _ =>
    cases isRead
    rw [named, folded]
  · cases isRead

theorem exists_standsFor_of_ofDeclaration {types : ActionTypes} {entry : FactoryPlan}
    (member : declaration ∈ unit.declarationsOfKind .classLike)
    (made : FactoryPlan.ofDeclaration config unit types declaration = .ok entry) :
    unit.nameOf? declaration = some entry.name ∧
      ∃ declared ∈ unit.declared, entry.StandsFor declared := by
  obtain ⟨read, label, literal, isRead, _, rfl⟩ := FactoryPlan.ofDeclaration_eq_ok_iff.1 made
  obtain ⟨declares, isClass⟩ := List.mem_filter.1 member
  have named := nameOf?_of_actionClass? isRead
  refine ⟨named, _, mem_declared_of_nameOf? declares named, of_decide_eq_true isClass, rfl, rfl, ?_⟩
  rw [isSome_exportedAs? declares]
  exact FactoryPlan.hasStart_factoryDeclaration ..

namespace UnitPlan

variable (planned : UnitPlan.ofUnit config pattern unit = .ok plan)

include planned

theorem exists_standsFor {entry : FactoryPlan} (member : entry ∈ plan.classes) :
    ∃ declared ∈ unit.declared, entry.StandsFor declared := by
  obtain ⟨_, _, _, _, _, _, classes, _⟩ := ofUnit_eq_ok_iff.1 planned
  obtain ⟨declaration, declares, made⟩ := exists_related_of_mem classes.flip member
  exact (exists_standsFor_of_ofDeclaration declares made).2

theorem exists_entry {declared : Declared} (member : declared ∈ unit.declared)
    (isClass : declared.kind = .classLike) :
    ∃ entry ∈ plan.classes, entry.name = declared.name := by
  obtain ⟨_, _, _, _, _, _, classes, _⟩ := ofUnit_eq_ok_iff.1 planned
  obtain ⟨declaration, declares, named, sameKind, _⟩ := mem_declared_iff.1 member
  have isOfKind : declaration ∈ unit.declarationsOfKind .classLike :=
    List.mem_filter.2 ⟨declares, by simp [sameKind, isClass]⟩
  obtain ⟨entry, entryMember, made⟩ := exists_related_of_mem classes isOfKind
  have sameName := (exists_standsFor_of_ofDeclaration isOfKind made).1
  exact ⟨entry, entryMember, Option.some.inj (sameName.symm.trans named)⟩

theorem exists_declared_of_takes {kind : DeclarationKind} {name : String}
    (takes : plan.Takes kind name) :
    ∃ declared ∈ unit.declared, declared.kind = kind ∧ declared.name = name := by
  have declaredBy {declaration : Declaration} (member : declaration ∈ unit.declarations)
      (named : unit.nameOf? declaration = some name) (isKind : declaration.kind = kind) :
      ∃ declared ∈ unit.declared, declared.kind = kind ∧ declared.name = name :=
    ⟨_, mem_declared_of_nameOf? member named, isKind, rfl⟩
  obtain ⟨_, first, rest, enums, named, _, _, aggregated⟩ := ofUnit_eq_ok_iff.1 planned
  -- each kind of entry was read off a declaration of the unit
  cases takes with
  | replaced member =>
    obtain ⟨declared, declares, standsFor⟩ := exists_standsFor planned member
    exact ⟨declared, declares, standsFor.isClass, standsFor.sameName⟩
  | enum =>
    have member : first ∈ unit.declarationsOfKind .enum := enums ▸ List.mem_cons_self
    obtain ⟨declares, isEnum⟩ := List.mem_filter.1 member
    exact declaredBy declares named (of_decide_eq_true isEnum)
  | aggregate found =>
    rw [aggregated] at found
    obtain ⟨declaration, fits, made⟩ := Option.bind_eq_some_iff.1 found
    obtain ⟨declares, isAlias⟩ := List.mem_filter.1 (List.mem_of_find?_eq_some fits)
    unfold AliasPlan.ofDeclaration at made
    split at made
    · next nameOf _ =>
      cases made
      exact declaredBy declares nameOf (of_decide_eq_true isAlias)
    · cases made

/-- A name that is taken away is the name of what is taken away only. -/
theorem HasOwnNames.kind_eq (own : plan.HasOwnNames unit) {kind : DeclarationKind}
    {declared : Declared} (takes : plan.Takes kind declared.name)
    (member : declared ∈ unit.declared) : declared.kind = kind := by
  obtain ⟨taken, takenMember, rfl, sameName⟩ := exists_declared_of_takes planned takes
  have once := (own _ takes.mem_takenNames).1
  rw [eq_of_countDeclared once member rfl takenMember sameName]

end UnitPlan

end

/-! ## What is read behind the migration -/

/-- What becomes of a declared name when the classes are replaced. -/
def Declared.replaced (declared : Declared) : Declared :=
  if declared.kind = .classLike then
    { kind := .variable
      name := Text.decapitalize declared.name
      exportedAs := declared.exportedAs.map fun _ => Text.decapitalize declared.name }
  else declared

theorem Declared.replaced_of_isClass {declared : Declared} (isClass : declared.kind = .classLike) :
    declared.replaced = ⟨.variable, Text.decapitalize declared.name,
      declared.exportedAs.map fun _ => Text.decapitalize declared.name⟩ :=
  if_pos isClass

theorem Declared.replaced_of_ne {declared : Declared} (other : declared.kind ≠ .classLike) :
    declared.replaced = declared :=
  if_neg other

/-- The statement is the declaration of the factory as it was written. It declares the factory, and
it exports it if it starts with `export`. -/
def FactoryPlan.isReadAs (entry : FactoryPlan) (text : String) (statement : Node) : Bool :=
  let written := statement.textIn text
  let exportedAs := if Text.hasStart "export " written then some entry.factory.name else none
  written == entry.replacement &&
    decide (declaredBy text statement = [⟨.variable, entry.factory.name, exportedAs⟩])

namespace UnitPlan

/-- The entry for the class that a statement declares. -/
def entryFor? (plan : UnitPlan) (text : String) (statement : Node) : Option FactoryPlan :=
  plan.classes.find? fun entry => (declaredBy text statement).any fun declared =>
    decide (declared.kind = .classLike) && declared.name == entry.name

/-- A class is read as the factory that was written in its place, and anything else as before. -/
def readsStatement (plan : UnitPlan) (unit changed : SourceUnit) (statement other : Node) : Bool :=
  match plan.entryFor? unit.text statement with
  | some entry => entry.isReadAs changed.text other
  | none => alike unit.text changed.text statement other

def readsFactories (plan : UnitPlan) (unit changed : SourceUnit) : Bool :=
  unit.statements.length == changed.statements.length &&
    (unit.statements.zip changed.statements).all fun pair =>
      plan.readsStatement unit changed pair.1 pair.2

/-- The statements that are left are read as before. -/
def readsRemoved (plan : UnitPlan) (changed removed : SourceUnit) : Bool :=
  allAlike changed.text removed.text
    (plan.removedNames.foldl (eraseDeclaration changed.text) changed.statements) removed.statements

/-- Whether the unit is read as it was written each time that its text changes: with the factories,
without the enum and the alias, and with its imports aligned. -/
def readsAsWritten (plan : UnitPlan) (unit final : SourceUnit) : Bool :=
  match unit.apply plan.classEdits with
  | .error _ => true
  | .ok changed =>
      plan.readsFactories unit changed &&
        match changed.apply (removalEdits plan changed) with
        | .error _ => true
        | .ok removed => plan.readsRemoved changed removed && removed.sameCode final

/-- What the unit declares in the end, with its bare exports unchanged. -/
structure Rewrites (plan : UnitPlan) (unit final : SourceUnit) : Prop where
  declared : final.declared = (unit.declared.map Declared.replaced).filter fun declared =>
    !plan.removedNames.contains declared.name
  bare : Forall₂ (Alike unit.text final.text) unit.bareExports final.bareExports

end UnitPlan

theorem forall₂_filter_of {α β : Type} {related kept : α → β → Prop} {test : α → Bool}
    {testThen : β → Bool} {items : List α} {others : List β} (all : Forall₂ related items others)
    (each : ∀ item other, related item other →
      test item = testThen other ∧ (test item = true → kept item other)) :
    Forall₂ kept (items.filter test) (others.filter testThen) := by
  induction all with
  | nil => exact .nil
  | @cons item other _ _ first _ inductionHypothesis =>
    obtain ⟨same, keeps⟩ := each item other first
    rw [List.filter_cons, List.filter_cons, ← same]
    split
    · next passes => exact .cons (keeps passes) inductionHypothesis
    · exact inductionHypothesis

section

variable {config : Config} {pattern : Pattern} {plan : UnitPlan}
  {unit changed removed final : SourceUnit}
  (planned : UnitPlan.ofUnit config pattern unit = .ok plan) (own : plan.HasOwnNames unit)

namespace UnitPlan

theorem exists_class_of_entryFor? {text : String} {statement : Node} {entry : FactoryPlan}
    (found : plan.entryFor? text statement = some entry) :
    entry ∈ plan.classes ∧ ∃ declared ∈ declaredBy text statement,
      declared.kind = .classLike ∧ declared.name = entry.name := by
  unfold entryFor? at found
  have passes := List.find?_some found
  obtain ⟨declared, member, both⟩ := List.any_eq_true.1 passes
  obtain ⟨isClass, sameName⟩ := Bool.and_eq_true_iff.1 both
  exact ⟨List.mem_of_find?_eq_some found, declared, member, of_decide_eq_true isClass,
    eq_of_beq sameName⟩

theorem forall₂_of_readsFactories (reads : plan.readsFactories unit changed = true) :
    Forall₂ (fun statement other => statement ∈ unit.statements ∧
      plan.readsStatement unit changed statement other = true)
      unit.statements changed.statements := by
  obtain ⟨lengths, all⟩ := Bool.and_eq_true_iff.1 reads
  refine List.forall₂_iff_zip.2 ⟨eq_of_beq lengths, fun {_ _} pair => ?_⟩
  exact ⟨(List.of_mem_zip pair).1, List.all_eq_true.1 all _ pair⟩

include planned own

theorem declaredBy_of_readsStatement {statement other : Node} (member : statement ∈ unit.statements)
    (reads : plan.readsStatement unit changed statement other = true) :
    declaredBy changed.text other =
      (declaredBy unit.text statement).map Declared.replaced := by
  have inUnit {declared : Declared} (declares : declared ∈ declaredBy unit.text statement) :
      declared ∈ unit.declared :=
    List.mem_flatMap.2 ⟨statement, member, declares⟩
  unfold readsStatement at reads
  cases found : plan.entryFor? unit.text statement with
  | none =>
    rw [found] at reads
    rw [← declaredBy_eq reads]
    refine (List.map_congr_left fun declared declares => ?_).trans (List.map_id _) |>.symm
    refine Declared.replaced_of_ne fun isClass => ?_
    obtain ⟨entry, entryMember, sameName⟩ := exists_entry planned (inUnit declares) isClass
    have none := List.find?_eq_none.1 found entry entryMember
    exact none (List.any_eq_true.2 ⟨declared, declares, by simp [isClass, sameName]⟩)
  | some entry =>
    rw [found] at reads
    obtain ⟨written, declares⟩ := Bool.and_eq_true_iff.1 reads
    obtain ⟨entryMember, declared, declaredMember, isClass, sameName⟩ :=
      exists_class_of_entryFor? found
    -- the entry was made of this class, as no other one has its name
    obtain ⟨origin, originMember, standsFor⟩ := exists_standsFor planned entryMember
    have once := (own _ (Takes.replaced entryMember).mem_takenNames).1
    obtain rfl := eq_of_countDeclared once (inUnit declaredMember) sameName originMember
      standsFor.sameName
    rw [of_decide_eq_true declares, eq_of_beq written, standsFor.exports,
      eq_singleton_of_mem_declaredBy declaredMember (by simp [isClass]), List.map_singleton,
      Declared.replaced_of_isClass isClass, sameName, standsFor.factoryName]
    cases declared.exportedAs <;> rfl

theorem declared_of_readsFactories (reads : plan.readsFactories unit changed = true) :
    changed.declared = unit.declared.map Declared.replaced := by
  have declares := flatMap_eq_of_forall₂ (forall₂_of_readsFactories reads) fun _ _ both =>
    (declaredBy_of_readsStatement planned own both.1 both.2).symm
  rw [SourceUnit.declared, SourceUnit.declared, List.map_flatMap]
  exact declares.symm

theorem bareExports_of_readsFactories (reads : plan.readsFactories unit changed = true) :
    Forall₂ (Alike unit.text changed.text) unit.bareExports changed.bareExports := by
  refine forall₂_filter_of (forall₂_of_readsFactories reads) fun statement other both => ?_
  obtain ⟨member, reads⟩ := both
  have declares := declaredBy_of_readsStatement planned own member reads
  unfold readsStatement at reads
  cases found : plan.entryFor? unit.text statement with
  | none =>
    rw [found] at reads
    exact ⟨isBareExport_eq reads, fun _ => reads⟩
  | some entry =>
    obtain ⟨_, declared, declaredMember, _⟩ := exists_class_of_entryFor? found
    -- neither the class nor its factory stands in a bare export
    have declaresThen : declared.replaced ∈ declaredBy changed.text other :=
      declares ▸ List.mem_map_of_mem declaredMember
    rw [isBareExport_of_mem_declaredBy declaredMember, isBareExport_of_mem_declaredBy declaresThen]
    exact ⟨rfl, fun isBare => absurd isBare (by simp)⟩

omit own in
theorem isFactory_of_isClass {declared : Declared} (member : declared ∈ unit.declared)
    (isClass : declared.kind = .classLike) :
    declared.replaced.kind = .variable ∧ declared.replaced.name ∈ plan.factoryNames := by
  obtain ⟨entry, entryMember, sameName⟩ := exists_entry planned member isClass
  obtain ⟨_, _, standsFor⟩ := exists_standsFor planned entryMember
  rw [Declared.replaced_of_isClass isClass, ← sameName, ← standsFor.factoryName]
  exact ⟨rfl, List.mem_map_of_mem entryMember⟩

/-- What is read under a name that is taken away is what was declared under it. -/
theorem replaced_eq_self {declared : Declared} (member : declared ∈ unit.declared)
    (taken : declared.replaced.name ∈ plan.takenNames) : declared.replaced = declared := by
  by_cases isClass : declared.kind = .classLike
  · exact absurd (isFactory_of_isClass planned member isClass).2 (own _ taken).2
  · exact Declared.replaced_of_ne isClass

/-! What is removed is declared once, and not as a variable, behind the replacement as well. -/

section

variable (declares : changed.declared = unit.declared.map Declared.replaced)

include declares

theorem ne_variable_of_isRemoved {declared : Declared} (member : declared ∈ changed.declared)
    (isRemoved : declared.name ∈ plan.removedNames) : declared.kind ≠ .variable := by
  have taken : declared.name ∈ plan.takenNames := List.mem_append_right _ isRemoved
  rw [declares] at member
  obtain ⟨origin, originMember, rfl⟩ := List.mem_map.1 member
  have same := replaced_eq_self planned own originMember taken
  rw [same] at taken ⊢
  obtain ⟨kind, takes⟩ := exists_takes taken
  rw [own.kind_eq planned takes originMember]
  exact takes.ne_variable

theorem countDeclared_of_isRemoved {name : String} (isRemoved : name ∈ plan.removedNames) :
    countDeclared name changed.declared ≤ 1 := by
  have taken : name ∈ plan.takenNames := List.mem_append_right _ isRemoved
  rw [declares, countDeclared, List.countP_map]
  -- no factory takes the name, so the replacement adds no declaration of it
  refine (List.countP_mono_left fun declared member named => ?_).trans (own name taken).1
  have isTaken : declared.replaced.name ∈ plan.takenNames := eq_of_beq named ▸ taken
  rwa [Function.comp_apply, replaced_eq_self planned own member isTaken] at named

end

theorem rewrites_of_readsRemoved (readsFirst : plan.readsFactories unit changed = true)
    (readsRest : plan.readsRemoved changed removed = true) (code : removed.sameCode final = true) :
    plan.Rewrites unit final := by
  have declares := declared_of_readsFactories planned own readsFirst
  -- what is left behind the removal is in the unit to the end
  have left := forall₂_alike_trans (allAlike_iff.1 readsRest) (forall₂_statements code)
  constructor
  · have declaredLast := flatMap_eq_of_forall₂ left fun _ _ => declaredBy_eq
    rw [flatMap_foldl_eraseDeclaration
      (fun _ member => ne_variable_of_isRemoved planned own declares member)
      (fun _ => countDeclared_of_isRemoved planned own declares)] at declaredLast
    rw [← declares]
    exact declaredLast.symm
  · have bareLast := forall₂_filter left fun _ _ => isBareExport_eq
    rw [filter_foldl_eraseDeclaration] at bareLast
    exact forall₂_alike_trans (bareExports_of_readsFactories planned own readsFirst) bareLast

end UnitPlan

end

/-! ## The exports -/

namespace UnitPlan

/-- The exports of the unit follow the migration. -/
structure ExportsFollow (plan : UnitPlan) (unit final : SourceUnit) : Prop where
  /-- A class that is exported under its own name becomes a factory that is. -/
  factories : ∀ entry ∈ plan.classes, unit.Exports .classLike entry.name entry.name →
    final.Exports .variable (Text.decapitalize entry.name) (Text.decapitalize entry.name)
  gone : ∀ {kind : DeclarationKind} {name outer : String}, plan.Takes kind name →
    ¬ final.Exports kind name outer
  /-- No list names what the unit declares no longer. -/
  lists : ∀ entry ∈ final.listed, unit.HasDeclarationOf entry.1 → final.HasDeclarationOf entry.1
  others : ∀ {kind : DeclarationKind} {name outer : String}, ¬ plan.Takes kind name →
    ¬ (kind = .variable ∧ name ∈ plan.factoryNames) →
      (final.Exports kind name outer ↔ unit.Exports kind name outer)
  /-- A variable is exported anew only as the factory of a class that was exported. -/
  added : ∀ {name outer : String}, final.Exports .variable name outer →
    unit.Exports .variable name outer ∨ (name, outer) ∈ unit.listed ∨
      outer = name ∧ ∃ actionClass exportedAs, Text.decapitalize actionClass = name ∧
        unit.Exports .classLike actionClass exportedAs
  bare : Forall₂ (Alike unit.text final.text) unit.bareExports final.bareExports

namespace Rewrites

variable {config : Config} {pattern : Pattern} {plan : UnitPlan} {unit final : SourceUnit}
  (rewrites : plan.Rewrites unit final)

include rewrites

theorem mem_declared_iff {declared : Declared} :
    declared ∈ final.declared ↔ (∃ origin ∈ unit.declared, origin.replaced = declared) ∧
      declared.name ∉ plan.removedNames := by
  rw [rewrites.declared, List.mem_filter, List.mem_map]
  simp

theorem listed_eq : final.listed = unit.listed := (SourceUnit.listed_eq rewrites.bare).symm

theorem exports_variable {name outer : String} (exports : final.Exports .variable name outer) :
    unit.Exports .variable name outer ∨ (name, outer) ∈ unit.listed ∨
      outer = name ∧ ∃ actionClass exportedAs, Text.decapitalize actionClass = name ∧
        unit.Exports .classLike actionClass exportedAs := by
  obtain ⟨_, member, isVariable, rfl, exportedAs | inList⟩ := exports
  · obtain ⟨⟨origin, originMember, rfl⟩, _⟩ := rewrites.mem_declared_iff.1 member
    by_cases isClass : origin.kind = .classLike
    · rw [Declared.replaced_of_isClass isClass] at exportedAs ⊢
      obtain ⟨own, ownExport, rfl⟩ := Option.map_eq_some_iff.1 exportedAs
      exact .inr (.inr ⟨rfl, origin.name, own, rfl, origin, originMember, isClass, rfl,
        .inl ownExport⟩)
    · rw [Declared.replaced_of_ne isClass] at exportedAs isVariable ⊢
      exact .inl ⟨origin, originMember, isVariable, rfl, .inl exportedAs⟩
  · exact .inr (.inl (rewrites.listed_eq ▸ inList))

variable (planned : UnitPlan.ofUnit config pattern unit = .ok plan) (own : plan.HasOwnNames unit)

include planned own

/-- What is neither replaced nor removed is declared as before. -/
theorem mem_declared_of_kept {declared : Declared} (member : declared ∈ unit.declared)
    (kept : ¬ plan.Takes declared.kind declared.name) : declared ∈ final.declared := by
  have other : declared.kind ≠ .classLike := by
    intro isClass
    obtain ⟨entry, entryMember, sameName⟩ := exists_entry planned member isClass
    rw [isClass, ← sameName] at kept
    exact kept (.replaced entryMember)
  refine rewrites.mem_declared_iff.2
    ⟨⟨declared, member, Declared.replaced_of_ne other⟩, fun isRemoved => ?_⟩
  obtain ⟨kind, takes⟩ := exists_takes (List.mem_append_right _ isRemoved)
  exact kept (own.kind_eq planned takes member ▸ takes)

theorem not_hasDeclarationOf {kind : DeclarationKind} {name : String}
    (takes : plan.Takes kind name) : ¬ final.HasDeclarationOf name := by
  rintro ⟨_, member, rfl⟩
  obtain ⟨⟨origin, originMember, rfl⟩, left⟩ := rewrites.mem_declared_iff.1 member
  have same := replaced_eq_self planned own originMember takes.mem_takenNames
  rw [same] at takes left
  rcases takes.isClass_or_removed with isClass | isRemoved
  · have isClass := (own.kind_eq planned takes originMember).trans isClass
    rw [Declared.replaced_of_isClass isClass] at same
    exact absurd (congrArg Declared.kind same) (by simp [isClass])
  · exact left isRemoved

theorem exports_iff {kind : DeclarationKind} {name outer : String} (kept : ¬ plan.Takes kind name)
    (other : ¬ (kind = .variable ∧ name ∈ plan.factoryNames)) :
    final.Exports kind name outer ↔ unit.Exports kind name outer := by
  constructor
  · rintro ⟨_, member, rfl, rfl, exported⟩
    obtain ⟨⟨origin, originMember, rfl⟩, _⟩ := rewrites.mem_declared_iff.1 member
    have otherKind : origin.kind ≠ .classLike := fun isClass =>
      other (isFactory_of_isClass planned originMember isClass)
    rw [Declared.replaced_of_ne otherKind] at exported ⊢
    exact ⟨origin, originMember, rfl, rfl, rewrites.listed_eq ▸ exported⟩
  · rintro ⟨declared, member, rfl, rfl, exported⟩
    exact ⟨declared, rewrites.mem_declared_of_kept planned own member kept, rfl, rfl,
      rewrites.listed_eq ▸ exported⟩

theorem follow_iff :
    plan.ExportsFollow unit final ↔ ∀ entry ∈ unit.listed, entry.1 ∉ plan.takenNames := by
  constructor
  · intro follow entry inList taken
    -- the list is left as it was, and what it names was declared
    obtain ⟨kind, takes⟩ := exists_takes taken
    obtain ⟨declared, member, _, named⟩ := exists_declared_of_takes planned takes
    have declares := follow.lists entry (rewrites.listed_eq ▸ inList) ⟨declared, member, named⟩
    exact rewrites.not_hasDeclarationOf planned own takes declares
  · intro spares
    refine ⟨?_, ?_, ?_, rewrites.exports_iff planned own, rewrites.exports_variable, rewrites.bare⟩
    · rintro entry entryMember ⟨declared, member, isClass, named, exported⟩
      have takes : plan.Takes .classLike entry.name := .replaced entryMember
      have isFactory := isFactory_of_isClass planned member isClass
      have left : declared.replaced.name ∉ plan.removedNames := fun isRemoved =>
        (own _ (List.mem_append_right _ isRemoved)).2 isFactory.2
      refine ⟨declared.replaced, rewrites.mem_declared_iff.2 ⟨⟨declared, member, rfl⟩, left⟩,
        isFactory.1, ?_, .inl ?_⟩
      · rw [Declared.replaced_of_isClass isClass, named]
      · rcases exported with exportedAs | inList
        · rw [Declared.replaced_of_isClass isClass, exportedAs, named, Option.map_some]
        · -- a list does not export it, as the lists spare what is taken away
          exact absurd takes.mem_takenNames (spares _ inList)
    · exact fun takes ⟨declared, member, _, named, _⟩ =>
        rewrites.not_hasDeclarationOf planned own takes ⟨declared, member, named⟩
    · rintro entry inList ⟨declared, member, named⟩
      rw [rewrites.listed_eq] at inList
      refine ⟨declared, rewrites.mem_declared_of_kept planned own member fun takes => ?_, named⟩
      exact spares entry inList (named ▸ takes.mem_takenNames)

end Rewrites

end UnitPlan

/-! ## The migration -/

/-- The run of a plan writes the unit in three steps: with the factories, without the enum and the
alias, and with its imports aligned. -/
theorem UnitPlan.Stages.exists_written {config : Config} {path : Path} {plan : UnitPlan}
    {project declared handed removed result : Project} {unit : SourceUnit}
    (stages : plan.Stages config path project declared handed removed result)
    (normal : project.HasNormalPaths) (normalPath : path.normalize.components = path.components)
    (found : project.unit? path = some unit) :
    ∃ changed left final, unit.apply plan.classEdits = .ok changed ∧
      changed.apply (removalEdits plan changed) = .ok left ∧ result.unit? path = some final := by
  obtain ⟨old, changed, foundOld, changes, foundThen⟩ :=
    unit?_of_apply (apply_eq_ok_iff.1 stages.declares)
  cases found.symm.trans foundOld
  -- the hand-overs change other units only, so the removal finds the unit with its factories
  obtain ⟨own, foundOwn, removes⟩ := stages.removes
  cases (stages.unit?_handed normal normalPath foundThen).symm.trans foundOwn
  obtain ⟨_, left, foundLast, removesOwn, _⟩ := unit?_of_apply (apply_eq_ok_iff.1 removes)
  cases foundOwn.symm.trans foundLast
  obtain ⟨_, aligned⟩ := stages.aligns
  obtain ⟨_, _, _, _, _, _, _, applied, _⟩ := alignImports_eq_ok aligned
  obtain ⟨_, final, _, _, foundFinal⟩ := unit?_of_apply applied
  exact ⟨changed, left, final, changes, removesOwn, foundFinal⟩

/-- A migrated unit is left in the project. As far as its names are its own and its texts are read
as they were written, its exports follow the migration exactly when no list of exports names a
class, the enum or the alias: the migration does not look into the lists. -/
theorem exportsFollow_iff {config : Config} {pattern : Pattern} {path : Path}
    {project result : Project} {answer : FactoryCatalog × ActionChanges}
    (normal : project.HasNormalPaths) (normalPath : path.normalize.components = path.components)
    (ran : migrateActions config pattern path project = .ok (.migrated answer) result) :
    ∃ unit plan final, project.unit? path = some unit ∧
      UnitPlan.ofUnit config pattern unit = .ok plan ∧ result.unit? path = some final ∧
      (plan.HasOwnNames unit → plan.readsAsWritten unit final = true →
        (plan.ExportsFollow unit final ↔ ∀ entry ∈ unit.listed, entry.1 ∉ plan.takenNames)) := by
  obtain ⟨unit, plan, found, planned, _, _, _, stages⟩ := exists_stages ran
  obtain ⟨changed, left, final, changes, removes, foundFinal⟩ :=
    stages.exists_written normal normalPath found
  refine ⟨unit, plan, final, found, planned, foundFinal, fun own reads => ?_⟩
  unfold UnitPlan.readsAsWritten at reads
  simp only [changes, removes, Bool.and_eq_true] at reads
  obtain ⟨readsFactories, readsRemoved, code⟩ := reads
  exact (UnitPlan.rewrites_of_readsRemoved planned own readsFactories readsRemoved code).follow_iff
    planned own

/-- A unit that exports its class by a modifier and another name by a list. -/
def classByModifier : Project :=
  ofSources ⟨""⟩ {}
    [(⟨"a.ts"⟩, "enum T\x7bL='l'\x7dexport class C\x7btype=T.L\x7dexport\x7bx\x7d")]

theorem exportsFollow_iff_classByModifier :
    ∃ answer result unit plan final,
      classByModifier.HasNormalPaths ∧
      (⟨"a.ts"⟩ : Path).normalize.components = (⟨"a.ts"⟩ : Path).components ∧
      migrateActions noLibrary .empty ⟨"a.ts"⟩ classByModifier = .ok (.migrated answer) result ∧
      classByModifier.unit? ⟨"a.ts"⟩ = some unit ∧
      UnitPlan.ofUnit noLibrary .empty unit = .ok plan ∧ result.unit? ⟨"a.ts"⟩ = some final ∧
      plan.HasOwnNames unit ∧ plan.readsAsWritten unit final = true ∧
      plan.ExportsFollow unit final := by
  have succeeds : succeedsWith
      (fun outcome result => match outcome with
        | .migrated _ => decide (∀ unit ∈ classByModifier.unit? ⟨"a.ts"⟩,
            ∀ plan ∈ (UnitPlan.ofUnit noLibrary .empty unit).toOption,
            ∀ final ∈ result.unit? ⟨"a.ts"⟩, plan.HasOwnNames unit ∧
              plan.readsAsWritten unit final = true ∧
              ∀ entry ∈ unit.listed, entry.1 ∉ plan.takenNames)
        | .skipped _ => false)
      (migrateActions noLibrary .empty ⟨"a.ts"⟩ classByModifier) = true := by
    decide +kernel
  obtain ⟨outcome, result, ran, holds⟩ := exists_of_succeedsWith succeeds
  cases outcome with
  | skipped => cases holds
  | migrated answer =>
    have normal : classByModifier.HasNormalPaths := hasNormalPaths_ofSources _ _ _
    have normalPath : (⟨"a.ts"⟩ : Path).normalize.components = (⟨"a.ts"⟩ : Path).components := by
      decide +kernel
    obtain ⟨unit, plan, final, found, planned, foundFinal, follow⟩ :=
      exportsFollow_iff normal normalPath ran
    obtain ⟨own, reads, spares⟩ :=
      of_decide_eq_true holds unit found plan (by rw [planned]; rfl) final foundFinal
    exact ⟨answer, result, unit, plan, final, normal, normalPath, ran, found, planned, foundFinal,
      own, reads, (follow own reads).2 spares⟩

/-- A unit that exports its class by a list. -/
def classByList : Project :=
  ofSources ⟨""⟩ {} [(⟨"a.ts"⟩, "enum T\x7bL='l'\x7dclass C\x7btype=T.L\x7dexport\x7bC\x7d")]

/-- The list is left naming the class, which is gone, and the factory is not exported. -/
theorem not_exportsFollow_classByList :
    ∃ answer result unit plan final,
      migrateActions noLibrary .empty ⟨"a.ts"⟩ classByList = .ok (.migrated answer) result ∧
      classByList.unit? ⟨"a.ts"⟩ = some unit ∧
      UnitPlan.ofUnit noLibrary .empty unit = .ok plan ∧
      result.unit? ⟨"a.ts"⟩ = some final ∧
      final.text = "const c = createAction('l');export\x7bC\x7d" ∧
      unit.Exports .classLike "C" "C" ∧ ¬ final.Exports .variable "c" "c" ∧
      ("C", "C") ∈ final.listed ∧ ¬ final.HasDeclarationOf "C" ∧
      ¬ plan.ExportsFollow unit final := by
  have succeeds : succeedsWith
      (fun outcome result => match outcome with
        | .migrated _ => decide (∀ unit ∈ classByList.unit? ⟨"a.ts"⟩,
            ∃ final ∈ result.unit? ⟨"a.ts"⟩,
              final.text = "const c = createAction('l');export\x7bC\x7d" ∧
              unit.Exports .classLike "C" "C" ∧ ¬ final.Exports .variable "c" "c" ∧
              ("C", "C") ∈ final.listed ∧ ¬ final.HasDeclarationOf "C")
        | .skipped _ => false)
      (migrateActions noLibrary .empty ⟨"a.ts"⟩ classByList) = true := by
    decide +kernel
  obtain ⟨outcome, result, ran, holds⟩ := exists_of_succeedsWith succeeds
  cases outcome with
  | skipped => cases holds
  | migrated answer =>
    obtain ⟨unit, plan, found, planned, _⟩ := exists_stages ran
    obtain ⟨final, foundFinal, text, exported, unexported, inList, undeclared⟩ :=
      of_decide_eq_true holds unit found
    refine ⟨answer, result, unit, plan, final, ran, found, planned, foundFinal, text, exported,
      unexported, inList, undeclared, fun follow => undeclared ?_⟩
    obtain ⟨declared, member, _, named, _⟩ := exported
    exact follow.lists _ inList ⟨declared, member, named⟩

end CreatorMigration
