import CreatorMigration.Config.Reader
import CreatorMigration.Migration.ActionClass
import CreatorMigration.Migration.Outcome
import CreatorMigration.Migration.Replacement
import CreatorMigration.Migration.Site
import CreatorMigration.Store
import CreatorMigration.Unit.Removal

/-! # Migration of actions

A unit of actions holds an enum of action types and a class per action. The migration declares a
factory in the place of each class, hands the uses of the classes, of the enum and of the aggregate
alias over to the factories, and removes the enum and the alias.

* `UnitPlan.ofUnit` reads the whole unit before the first edit, so that a unit which does not fit
  is skipped untouched.
* `migrateActions` carries the plan out.
-/

namespace CreatorMigration

/-! ## Plans -/

/-- What becomes of one class. -/
structure FactoryPlan where
  name : String
  factory : Factory
  /-- The member of the enum that the class is told apart by. -/
  member : Option String
  statement : Span
  replacement : String

/-- The alias for the union of all actions of the unit, and the factories of its members. -/
structure AliasPlan where
  name : String
  factories : List String

structure UnitPlan where
  enum : String
  types : ActionTypes
  classes : List FactoryPlan
  aggregate : Option AliasPlan

namespace FactoryPlan

/-- `, props<{ payload: T }>()`, which gives the factory its payload. -/
def propsArgument (creators : CreatorNames) (parameter : ConstructorParameter) : String :=
  let mark := if parameter.isOptional then "?: " else ": "
  ", " ++ creators.props ++ "<\x7b " ++ parameter.name ++ mark ++
    parameter.type.getD "unknown" ++ " \x7d>()"

def factoryDeclaration (creators : CreatorNames) (exported : Bool) (name literal : String)
    (payload : Option ConstructorParameter) : String :=
  (if exported then "export " else "") ++ "const " ++ name ++ " = " ++ creators.createAction ++
    "(" ++ literal ++ (payload.map (propsArgument creators)).getD "" ++ ");"

def ofClass (creators : CreatorNames) (declaration : Declaration) (read : ActionClass)
    (member : Option String) (literal : String) : FactoryPlan :=
  let payload := read.parameters.head?
  let name := Text.decapitalize read.name
  { name := read.name
    factory := { name, payloadField := payload.map ConstructorParameter.name }
    member
    statement := declaration.statement.node.span
    replacement := factoryDeclaration creators declaration.exported name literal payload }

/-- The member of the enum, if any, and the text that tells the actions of a class apart. -/
def discriminate (naming : Naming) (types : ActionTypes) (read : ActionClass) :
    Except SkipReason (Option String × String) :=
  match read.discriminator with
  | some (.member _ name) =>
      match types.find? name with
      | some literal => .ok (some name, literal)
      | none =>
          .error (.malformed ("class " ++ read.name ++ " refers to unknown action type " ++ name))
  | some (.literal text) => .ok (none, text)
  | some (.other text) =>
      .error (.malformed ("class " ++ read.name ++ " has unsupported " ++
        naming.discriminatorField ++ " " ++ text))
  | none =>
      .error (.malformed ("class " ++ read.name ++ " has no " ++ naming.discriminatorField ++
        " field"))

def ofDeclaration (config : Config) (unit : SourceUnit) (types : ActionTypes)
    (declaration : Declaration) : Except SkipReason FactoryPlan :=
  match unit.actionClass? config.naming declaration with
  | none => .error (.malformed "unnamed class")
  | some read => do
      let (member, literal) ← discriminate config.naming types read
      return ofClass config.creators declaration read member literal

end FactoryPlan

namespace AliasPlan

/-- The alias as a plan, if its name is that of an aggregate. -/
def ofDeclaration (unit : SourceUnit) (declaration : Declaration) : Option AliasPlan :=
  match unit.nameOf? declaration, declaration.node.child? .value with
  | some name, some value =>
      some
        { name
          factories := value.unionMembers.map fun member => Text.decapitalize (unit.textOf member) }
  | _, _ => none

/-- The first alias whose name fits the pattern. -/
def ofUnit (pattern : Pattern) (unit : SourceUnit) : Option AliasPlan :=
  ((unit.declarationsOfKind .typeAlias).find? fun declaration =>
    (unit.nameOf? declaration).any pattern.occursIn).bind (ofDeclaration unit)

end AliasPlan

namespace UnitPlan

def ofUnit (config : Config) (pattern : Pattern) (unit : SourceUnit) :
    Except SkipReason UnitPlan :=
  match unit.declarationsOfKind .enum, unit.declarationsOfKind .classLike with
  | [], [] =>
      .error (if unit.calls config.creators.createAction then .alreadyMigrated else .notActionUnit)
  | [], _ :: _ | _ :: _, [] => .error .notActionUnit
  | first :: _, classes =>
      match unit.nameOf? first with
      | none => .error (.malformed "unnamed enum")
      | some enum => do
          let types := unit.actionTypes first.node
          let classes ← classes.mapM (FactoryPlan.ofDeclaration config unit types)
          return { enum, types, classes, aggregate := AliasPlan.ofUnit pattern unit }

end UnitPlan

/-! ## Catalogues -/

/-- What the migration of a unit of actions makes known about its store. -/
structure FactoryCatalog where
  types : ActionTypes
  /-- The factories of the members of the enum that a class is told apart by. -/
  factories : Table String String

namespace FactoryCatalog

def ofPlan (plan : UnitPlan) : FactoryCatalog :=
  { types := plan.types
    factories := Table.ofEntries (plan.classes.filterMap fun entry =>
      entry.member.map fun member => (member, entry.factory.name)) }

/-- A member without a class is made by the factory of its own name. -/
def factoryOf (catalog : FactoryCatalog) (member : String) : String :=
  (catalog.factories.find? member).getD (Text.decapitalize member)

end FactoryCatalog

/-! ## Rules of replacement -/

/-- Uses of a class are handed over to its factory. -/
def classRule (factory : Factory) : ReplacementRule := fun unit place =>
  (Site.ofPlace? place).map (Site.edit unit.text factory)

/-- `Enum.Member` becomes the type of the factory of the member. -/
def enumRule (catalog : FactoryCatalog) : ReplacementRule := fun unit place =>
  match place.parent? with
  | none => none
  | some access =>
      if access.kind = .memberExpression ∧ place.node.role = some .object then
        (access.child? .property).map fun property =>
          ⟨access.span, catalog.factoryOf (unit.textOf property) ++ ".type"⟩
      else none

/-- The alias is written out as the type of what its factories make. -/
def aliasRule (aggregate : AliasPlan) : ReplacementRule := fun _ place =>
  some ⟨place.node.span, typeMadeBy aggregate.factories⟩

/-! ## The migration -/

structure ActionChanges where
  actions : Nat
  classReferences : Nat
  enumReferences : Nat
  aliasReferences : Nat
  /-- The other units that were changed. -/
  units : List Path

def ActionChanges.references (changes : ActionChanges) : Nat :=
  changes.classReferences + changes.enumReferences + changes.aliasReferences

/-- Hands over the uses of the classes, one class after the other. -/
def replaceClasses (config : Config) (path : Path) :
    List FactoryPlan → Update ProjectError Replacements
  | [] => return {}
  | entry :: rest => do
      let target : ReplacementTarget := ⟨path, entry.name, fun _ => false⟩
      let outcome ← replaceReferences target config.library (classRule entry.factory)
      let others ← replaceClasses config path rest
      return outcome.merge others

/-- Uses of the enum in reducers and pipelines are left to the migrations of those. -/
def replaceEnum (config : Config) (path : Path) (enum : String) (catalog : FactoryCatalog) :
    Update ProjectError Replacements :=
  let isLeftOut (unit : Path) : Bool :=
    let role := StorePart.ofPath config.naming unit
    decide (role = .reducer) || decide (role = .pipeline)
  replaceReferences ⟨path, enum, isLeftOut⟩ config.library (enumRule catalog)

def replaceAlias (config : Config) (path : Path) :
    Option AliasPlan → Update ProjectError Replacements
  | none => return {}
  | some aggregate =>
      replaceReferences ⟨path, aggregate.name, fun _ => false⟩ config.library (aliasRule aggregate)

/-- The edits that remove the first declarations of the enum and of the alias. -/
def removalEdits (plan : UnitPlan) (unit : SourceUnit) : List Edit :=
  (plan.enum :: (plan.aggregate.map AliasPlan.name).toList).filterMap fun name =>
    (unit.declaration? name).map fun declaration =>
      Edit.delete (unit.removalSpan declaration.statement)

def runUnitPlan (config : Config) (path : Path) (plan : UnitPlan) :
    Update ProjectError (FactoryCatalog × ActionChanges) := do
  Update.apply path (plan.classes.map fun entry => ⟨entry.statement, entry.replacement⟩)
  let classes ← replaceClasses config path plan.classes
  let catalog := FactoryCatalog.ofPlan plan
  let enum ← replaceEnum config path plan.enum catalog
  let aggregate ← replaceAlias config path plan.aggregate
  let unit ← Update.require path
  Update.apply path (removalEdits plan unit)
  let _ ← Project.alignImports config.library path
  let all := (classes.merge enum).merge aggregate
  return (catalog,
    { actions := plan.classes.length
      classReferences := classes.count
      enumReferences := enum.count
      aliasReferences := aggregate.count
      units := all.units.filter fun other => !(other == path) })

/-- Migrates the unit of actions at a path; `pattern` fits the names of aggregate aliases. -/
def migrateActions (config : Config) (pattern : Pattern) (path : Path) :
    Migration (Outcome (FactoryCatalog × ActionChanges)) := do
  match (← get).unit? path with
  | none => return .skipped .unitAbsent
  | some unit =>
      match UnitPlan.ofUnit config pattern unit with
      | .error reason => return .skipped reason
      | .ok plan => return .migrated (← Migration.lift (runUnitPlan config path plan))

end CreatorMigration
