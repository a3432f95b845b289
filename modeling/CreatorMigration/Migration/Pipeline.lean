import CreatorMigration.Migration.ActionClass
import CreatorMigration.Migration.Outcome
import CreatorMigration.Migration.Pass
import CreatorMigration.Migration.Replacement

/-! # Migration of pipelines

Effect pipelines are properties with an annotation. One after the other, the passes are run over the
first annotated property, and then its pipeline is wrapped into a call of the effect factory, which
takes the annotation away.

* `AnnotatedProperty.all` lists the annotated properties of a unit.
* `migrateAnnotated` refuses a unit with a property that holds no call before the first edit.
* `migratePipelines` runs the passes over a unit that is not refused.
-/

namespace CreatorMigration

/-! ## Annotated properties -/

structure AnnotatedProperty where
  property : Node
  decorator : Node

namespace AnnotatedProperty

def ofPlace? (config : Config) (unit : SourceUnit) (place : Place) : Option AnnotatedProperty :=
  if place.node.kind = .publicFieldDefinition then
    (place.decoratorNamed? unit.text config.pipeline.decorator).map fun decorator =>
      { property := place.node, decorator }
  else none

def all (config : Config) (unit : SourceUnit) : List AnnotatedProperty :=
  unit.tree.places.filterMap (ofPlace? config unit)

def first? (config : Config) (unit : SourceUnit) : Option AnnotatedProperty :=
  (all config unit).head?

def name (unit : SourceUnit) (annotated : AnnotatedProperty) : String :=
  annotated.property.childText unit.text .name

def value? (annotated : AnnotatedProperty) : Option Node := annotated.property.child? .value

def holdsCall (annotated : AnnotatedProperty) : Bool := annotated.value?.any Node.isCall

/-- The first argument of the annotation, as a further argument of the effect factory. -/
def options (unit : SourceUnit) (annotated : AnnotatedProperty) : String :=
  match annotated.decorator.namedParts with
  | expression :: _ =>
      if expression.isCall then
        ((expression.callArguments.head?).map fun argument => ", " ++ unit.textOf argument).getD ""
      else ""
  | [] => ""

/-- The edit that takes the annotation away and wraps the value of the property. -/
def wrapEdit? (config : Config) (unit : SourceUnit) (annotated : AnnotatedProperty) :
    Option Edit :=
  match annotated.property.child? .name, annotated.value? with
  | some name, some value =>
      let modifiers := Text.trimStart (unit.slice ⟨annotated.decorator.span.stop, name.span.start⟩)
      some ⟨annotated.decorator.span.through annotated.property.span,
        modifiers ++ unit.textOf name ++ " = " ++ config.creators.createEffect ++ "(() => " ++
          unit.textOf value ++ annotated.options unit ++ ")"⟩
  | _, _ => none

end AnnotatedProperty

/-! ## Running the passes -/

structure PipelineChanges where
  properties : Nat
  /-- The number of edits that each pass made. -/
  edits : Table Pass Nat

/-- At most the given number of rounds of a pass over the first annotated property; the answer is
the number of edits. -/
def repeatPass (config : Config) (path : Path) (pass : Pass) : Nat → Update ProjectError Nat
  | 0 => return 0
  | rounds + 1 => do
      let unit ← Update.require path
      match (AnnotatedProperty.first? config unit).bind AnnotatedProperty.value? with
      | none => return 0
      | some pipeline =>
          let edits := pass.roundEdits config unit pipeline
          if edits.isEmpty then return 0
          Update.apply path edits
          let others ← repeatPass config path pass rounds
          return edits.length + others

/-- Runs the passes in their order and counts their edits. -/
def runPasses (config : Config) (path : Path) (counts : Table Pass Nat) :
    List Pass → Update ProjectError (Table Pass Nat)
  | [] => return counts
  | pass :: rest => do
      let applied ← repeatPass config path pass roundLimit
      runPasses config path (counts.update pass 0 (· + applied)) rest

/-- Wraps the first annotated property, if there is one left. -/
def wrapNext (config : Config) (path : Path) : Update ProjectError Bool := do
  let unit ← Update.require path
  match (AnnotatedProperty.first? config unit).bind (AnnotatedProperty.wrapEdit? config unit) with
  | none => return false
  | some edit =>
      Update.apply path [edit]
      return true

/-- Runs the passes and wraps, one annotated property after the other. -/
def runPipelines (config : Config) (path : Path) (passes : List Pass) :
    Nat → PipelineChanges → Update ProjectError PipelineChanges
  | 0, changes => return changes
  | wraps + 1, changes => do
      let edits ← runPasses config path changes.edits passes
      if ← wrapNext config path then
        runPipelines config path passes wraps { properties := changes.properties + 1, edits }
      else return { changes with edits }

/-! ## The migration -/

/-- One more than the decorators of a unit; every wrapping takes one of them away. -/
def wrapLimit (unit : SourceUnit) : Nat :=
  (unit.tree.descendants.filter Node.isDecorator).length + 1

/-- Does a piece of work on the unit at a path if all of its annotated properties hold calls. The
work starts behind all checks of the unit. -/
def migrateAnnotated {σ : Type} (config : Config) (path : Path)
    (work : SourceUnit → Update ProjectError σ) : Migration (Outcome σ) := do
  match (← get).unit? path with
  | none => return .skipped .unitAbsent
  | some unit =>
      let annotated := AnnotatedProperty.all config unit
      if annotated.isEmpty then
        return .skipped
          (if unit.calls config.creators.createEffect then .alreadyMigrated
           else .noAnnotatedPipelines)
      match annotated.find? fun property => !property.holdsCall with
      | some property => throw (.unrecognizedPipeline path (property.name unit))
      | none => return .migrated (← Migration.lift (work unit))

/-- Runs the passes over all annotated properties, wraps them and brings the imports in step. -/
def finishPipelines (config : Config) (passes : List Pass) (path : Path) (unit : SourceUnit) :
    Update ProjectError PipelineChanges := do
  let start : PipelineChanges :=
    { properties := 0, edits := Table.ofEntries (passes.map fun pass => (pass, 0)) }
  let changes ← runPipelines config path passes (wrapLimit unit) start
  let _ ← Project.alignImports config.library path
  return changes

def migratePipelines (config : Config) (passes : List Pass) (path : Path) :
    Migration (Outcome PipelineChanges) :=
  migrateAnnotated config path (finishPipelines config passes path)

end CreatorMigration
