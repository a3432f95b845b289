import CreatorMigration.Migration.ActionClass
import CreatorMigration.Store
import CreatorMigration.Unit.Import
import CreatorMigration.Unit.Removal

/-! # Preflight checks

Rules that the units of stores must keep before they are migrated. A unit that breaks one would be
migrated in part or lose references.

* `Preflight.inspect` inspects the units of a project that lie in stores, test units left out.
* `Inspection.passed` holds when no rule is broken.
-/

namespace CreatorMigration

inductive Rule where
  /-- Units of stores import names one by one. -/
  | noStarImports
  /-- What is documented is documented by a doc comment. -/
  | docComments
  /-- Every class of actions can become a factory. -/
  | actionClasses
deriving DecidableEq

namespace Rule

def id : Rule → String
  | noStarImports => "no-star-imports-in-store"
  | docComments => "force-jsdoc-comments"
  | actionClasses => "check-actions-for-creator-migration"

def all : List Rule := [noStarImports, docComments, actionClasses]

end Rule

structure Violation where
  rule : Rule
  unit : Path
  line : Nat
  message : String

def Violation.render (violation : Violation) : String :=
  violation.unit.text ++ ":" ++ toString violation.line ++ ": [" ++ violation.rule.id ++ "] " ++
    violation.message ++ "\n"

structure Inspection where
  violations : List Violation
  unitsChecked : Nat

namespace Inspection

def passed (inspection : Inspection) : Bool := inspection.violations.isEmpty

def countOf (inspection : Inspection) (rule : Rule) : Nat :=
  inspection.violations.countP fun violation => decide (violation.rule = rule)

def render (inspection : Inspection) : String :=
  String.join (inspection.violations.map Violation.render) ++
    "Pre-flight: " ++ toString inspection.unitsChecked ++ " unit(s) checked, " ++
    toString inspection.violations.length ++ " violation(s): " ++
    (if inspection.passed then "PASS" else "FAIL") ++ "\n"

end Inspection

namespace Preflight

def violation (unit : SourceUnit) (rule : Rule) (offset : Nat) (message : String) : Violation :=
  { rule, unit := unit.path, line := unit.lineOf offset, message }

/-! ## Imports -/

def starImportViolation? (unit : SourceUnit) (statement : Import) : Option Violation :=
  statement.namespaceName.map fun name =>
    violation unit .noStarImports statement.statement.start
      ("namespace import \x60" ++ name ++ "\x60 from " ++ Text.singleQuoted statement.source)

def starImportViolations (unit : SourceUnit) : List Violation :=
  unit.imports.filterMap (starImportViolation? unit)

/-! ## Comments -/

/-- The declarations of a kind whose name passes a test, each with a description. -/
def documented (unit : SourceUnit) (kind : DeclarationKind) (what : String)
    (holds : String → Bool) : List (Place × String) :=
  (unit.declarationsOfKind kind).filterMap fun declaration =>
    let name := (unit.nameOf? declaration).getD ""
    if holds name then some (declaration.statement, what ++ " " ++ name) else none

/-- The annotated properties, each with a description. -/
def documentedPipelines (config : Config) (unit : SourceUnit) : List (Place × String) :=
  unit.tree.places.filterMap fun place =>
    if place.node.kind = .publicFieldDefinition then
      (place.decoratorNamed? unit.text config.pipeline.decorator).map fun _ =>
        (place, "pipeline " ++ place.node.childText unit.text .name)
    else none

/-- What a unit documents, by the part that it plays in its store. -/
def documentedPlaces (config : Config) (unit : SourceUnit) : List (Place × String) :=
  match StorePart.ofPath config.naming unit.path with
  | .declaration => documented unit .classLike "action class" fun _ => true
  | .reducer =>
      documented unit .function "reducing function"
        (Text.hasEnd config.naming.reducerFunctionSuffix)
  | .pipeline => documentedPipelines config unit
  | .other => []

def commentViolation? (unit : SourceUnit) (place : Place) (what : String) : Option Violation :=
  (unit.commentAbove? place).bind fun comment =>
    if Text.hasStart "//" (unit.textOf comment) then
      some (violation unit .docComments comment.span.start
        ("use a /** */ comment to document " ++ what))
    else none

def commentViolations (config : Config) (unit : SourceUnit) : List Violation :=
  (documentedPlaces config unit).filterMap fun (place, what) => commentViolation? unit place what

/-! ## Action classes -/

/-- The enums of a unit with their members. -/
def enumsOf (unit : SourceUnit) : List (String × ActionTypes) :=
  (unit.declarationsOfKind .enum).map fun declaration =>
    ((unit.nameOf? declaration).getD "", unit.actionTypes declaration.node)

def declares (enums : List (String × ActionTypes)) (qualifier member : String) : Bool :=
  enums.any fun (name, types) => name == qualifier && types.contains member

/-- What is wrong with the discriminator of a class. -/
def discriminatorFault? (config : Config) (enums : List (String × ActionTypes))
    (read : ActionClass) : Option String :=
  match read.discriminator with
  | some (.member qualifier member) =>
      if declares enums qualifier member then none
      else some (qualifier ++ "." ++ member ++ " is not declared in this unit")
  | _ =>
      some ("\x60" ++ config.naming.discriminatorField ++
        "\x60 must reference an action type enum member")

/-- What is wrong with the constructor of a class. -/
def constructorFault? (read : ActionClass) : Option String :=
  if 1 < read.parameters.length then
    some ("constructor takes " ++ toString read.parameters.length ++
      " parameters, at most one payload is supported")
  else none

def classViolations (config : Config) (unit : SourceUnit) (enums : List (String × ActionTypes))
    (declaration : Declaration) : List Violation :=
  match unit.actionClass? config.naming declaration with
  | none => []
  | some read =>
      ((discriminatorFault? config enums read).toList ++ (constructorFault? read).toList).map
        fun fault =>
          violation unit .actionClasses declaration.node.span.start (read.name ++ ": " ++ fault)

/-- Units that already declare factories are not checked for classes. -/
def actionViolations (config : Config) (unit : SourceUnit) : List Violation :=
  if StorePart.ofPath config.naming unit.path = .declaration ∧
      ¬unit.calls config.creators.createAction then
    (unit.declarationsOfKind .classLike).flatMap (classViolations config unit (enumsOf unit))
  else []

/-! ## Projects -/

def unitViolations (config : Config) (unit : SourceUnit) : List Violation :=
  starImportViolations unit ++ commentViolations config unit ++ actionViolations config unit

def isChecked (config : Config) (unit : SourceUnit) : Bool :=
  Store.liesInStore config.naming unit.path && !Text.hasEnd ".spec.ts" unit.fileName

def inspect (config : Config) (project : Project) : Inspection :=
  let units := project.units.filter (isChecked config)
  { violations := units.flatMap (unitViolations config), unitsChecked := units.length }

end Preflight

end CreatorMigration
