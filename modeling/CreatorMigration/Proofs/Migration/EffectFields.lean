import CreatorMigration.Migration.Pipeline
import Mathlib.Data.List.Basic

/-! # Fields with effects

What a unit says of the fields of its classes, as far as the migration of pipelines is to keep it or
to change it.

* `FieldRecord` has the names of a field and of its decorators, its modifiers and the form of its
  value. Passes over a pipeline leave the records alone.
* `FieldRecord.wrapped` is the record of an annotated field that has become an effect.
* `EffectRecord` has the texts of an effect. `EffectRecord.ofPlace?` reads it off a field that holds
  a call of the effect factory, and `EffectRecord.due?` says what an annotated field is to become.
-/

namespace CreatorMigration

/-! ## Records of fields -/

structure DecoratorRecord where
  name : Option String
  hasArgument : Bool
deriving BEq, ReflBEq, LawfulBEq

inductive FieldValue where
  | absent
  /-- A call of the effect factory with a function without parameters and with further arguments. -/
  | effect (further : Nat)
  | other
deriving BEq, ReflBEq, LawfulBEq

structure FieldRecord where
  name : Option String
  decorators : List DecoratorRecord
  modifiers : List String
  value : FieldValue
deriving BEq, ReflBEq, LawfulBEq

instance : DecidableEq FieldRecord := instDecidableEqOfLawfulBEq

namespace Node

/-- The first argument of a decorator. -/
def decoratorArgument? (decorator : Node) : Option Node :=
  decorator.namedParts.head?.bind fun expression =>
    if expression.isCall then expression.callArguments.head? else none

/-- What stands in front of the name of a field, but for its decorators. -/
def modifiers (field : Node) : List Node :=
  (field.parts.takeWhile fun part => part.role != some .name).filter fun part => !part.isDecorator

/-- The body of a function without parameters and the further arguments of a call of the given
function. -/
def effectParts? (text creator : String) (value : Node) : Option (Node × List Node) :=
  if value.calleeIs text (· == creator) then
    match value.callArguments with
    | function :: further =>
        if function.kind = .arrowFunction ∧
            (function.child? .parameters).any (fun list => list.namedParts.isEmpty) then
          (function.child? .body).map fun body => (body, further)
        else none
    | [] => none
  else none

end Node

def DecoratorRecord.ofNode (text : String) (decorator : Node) : DecoratorRecord :=
  { name := decorator.decoratorName? text
    hasArgument := decorator.decoratorArgument?.isSome }

def FieldValue.ofNode? (config : Config) (unit : SourceUnit) : Option Node → FieldValue
  | none => .absent
  | some value =>
      match value.effectParts? unit.text config.creators.createEffect with
      | some (_, further) => .effect further.length
      | none => .other

def FieldRecord.ofPlace (config : Config) (unit : SourceUnit) (place : Place) : FieldRecord :=
  { name := (place.node.child? .name).map unit.textOf
    decorators := place.decorators.map (DecoratorRecord.ofNode unit.text)
    modifiers := place.node.modifiers.map unit.textOf
    value := FieldValue.ofNode? config unit (place.node.child? .value) }

/-- The fields of all classes of a unit. -/
def SourceUnit.fieldPlaces (unit : SourceUnit) : List Place :=
  unit.tree.places.filter fun place => place.node.kind == .publicFieldDefinition

def SourceUnit.fields (config : Config) (unit : SourceUnit) : List FieldRecord :=
  unit.fieldPlaces.map (FieldRecord.ofPlace config unit)

/-! ## Annotated fields -/

def DecoratorRecord.annotates (config : Config) (decorator : DecoratorRecord) : Bool :=
  decorator.name == some config.pipeline.decorator

namespace FieldRecord

def isAnnotated (config : Config) (field : FieldRecord) : Bool :=
  field.decorators.any (DecoratorRecord.annotates config)

/-- An annotated field becomes an effect with the argument of the annotation, which it loses; it
keeps all else. -/
def wrapped (config : Config) (field : FieldRecord) : FieldRecord :=
  match field.decorators.find? (DecoratorRecord.annotates config) with
  | none => field
  | some annotating =>
      { field with
        decorators := field.decorators.eraseP (DecoratorRecord.annotates config)
        value := .effect (if annotating.hasArgument then 1 else 0) }

/-- The field has a name and a value, so that it can be wrapped. -/
def isComplete (field : FieldRecord) : Bool := field.name.isSome && field.value != .absent

def IsAnnotatedOnce (config : Config) (field : FieldRecord) : Prop :=
  field.decorators.countP (DecoratorRecord.annotates config) ≤ 1

instance (config : Config) (field : FieldRecord) : Decidable (field.IsAnnotatedOnce config) :=
  inferInstanceAs (Decidable (_ ≤ 1))

variable {config : Config} {field : FieldRecord}

theorem wrapped_of_not_isAnnotated (without : field.isAnnotated config = false) :
    field.wrapped config = field := by
  have none : field.decorators.find? (DecoratorRecord.annotates config) = none :=
    List.find?_eq_none.2 fun decorator member => by
      simpa using List.any_eq_false.1 without decorator member
  rw [wrapped, none]

theorem isComplete_wrapped (complete : field.isComplete = true) :
    (field.wrapped config).isComplete = true := by
  unfold wrapped
  split
  · exact complete
  · simp only [isComplete, Bool.and_eq_true] at complete ⊢
    exact ⟨complete.1, rfl⟩

theorem decorators_wrapped :
    (field.wrapped config).decorators =
      field.decorators.eraseP (DecoratorRecord.annotates config) := by
  unfold wrapped
  split
  · next none => exact (List.eraseP_of_forall_not (List.find?_eq_none.1 none)).symm
  · rfl

theorem not_isAnnotated_wrapped (once : field.IsAnnotatedOnce config) :
    (field.wrapped config).isAnnotated config = false := by
  rw [isAnnotated, decorators_wrapped]
  unfold IsAnnotatedOnce at once
  cases annotated : field.decorators.any (DecoratorRecord.annotates config) with
  | false =>
    rw [List.eraseP_of_forall_not fun decorator member => by
      simpa using List.any_eq_false.1 annotated decorator member]
    exact annotated
  | true =>
    obtain ⟨decorator, member, annotates⟩ := List.any_eq_true.1 annotated
    obtain ⟨first, front, rest, before, own, split, erased⟩ :=
      List.exists_of_eraseP member annotates
    rw [split, List.countP_append, List.countP_cons_of_pos own] at once
    have behind : rest.countP (DecoratorRecord.annotates config) = 0 := by omega
    rw [erased, List.any_append, Bool.or_eq_false_iff, List.any_eq_false, List.any_eq_false]
    exact ⟨before, List.countP_eq_zero.1 behind⟩

theorem isAnnotatedOnce_wrapped (once : field.IsAnnotatedOnce config) :
    (field.wrapped config).IsAnnotatedOnce config := by
  rw [IsAnnotatedOnce, decorators_wrapped]
  exact Nat.le_trans List.eraseP_sublist.countP_le once

theorem wrapped_wrapped (once : field.IsAnnotatedOnce config) :
    (field.wrapped config).wrapped config = field.wrapped config :=
  wrapped_of_not_isAnnotated (not_isAnnotated_wrapped once)

end FieldRecord

/-! ## Effects -/

structure EffectRecord where
  /-- The other decorators and the modifiers, in their order. -/
  front : List String
  name : String
  initializer : String
  argument : Option String
deriving BEq, ReflBEq, LawfulBEq

instance : DecidableEq EffectRecord := instDecidableEqOfLawfulBEq

namespace EffectRecord

/-- The name of the field and its new value. -/
def definition (config : Config) (effect : EffectRecord) : String :=
  effect.name ++ " = " ++ config.creators.createEffect ++ "(() => " ++ effect.initializer ++
    (effect.argument.map (", " ++ ·)).getD "" ++ ")"

/-- The effect that a field holds. -/
def ofPlace? (config : Config) (unit : SourceUnit) (place : Place) : Option EffectRecord := do
  let name ← place.node.child? .name
  let value ← place.node.child? .value
  let (body, further) ← value.effectParts? unit.text config.creators.createEffect
  return { front := (place.decorators ++ place.node.modifiers).map unit.textOf
           name := unit.textOf name
           initializer := unit.textOf body
           argument := further.head?.map unit.textOf }

/-- The effect that an annotated field is to hold. -/
def due? (config : Config) (unit : SourceUnit) (place : Place) : Option EffectRecord := do
  let annotating ← place.decoratorNamed? unit.text config.pipeline.decorator
  let name ← place.node.child? .name
  let value ← place.node.child? .value
  let others := place.decorators.eraseP fun decorator =>
    decorator.decoratorName? unit.text == some config.pipeline.decorator
  return { front := (others ++ place.node.modifiers).map unit.textOf
           name := unit.textOf name
           initializer := unit.textOf value
           argument := annotating.decoratorArgument?.map unit.textOf }

end EffectRecord

section

variable {config : Config} {unit : SourceUnit} {place : Place} {annotated : AnnotatedProperty}
  {effect : EffectRecord}

theorem AnnotatedProperty.options_eq :
    annotated.options unit =
      ((annotated.decorator.decoratorArgument?.map unit.textOf).map (", " ++ ·)).getD "" := by
  unfold options Node.decoratorArgument?
  cases annotated.decorator.namedParts with
  | nil => rfl
  | cons expression _ =>
    dsimp only [List.head?_cons, Option.bind_some]
    cases expression.isCall with
    | false => rfl
    | true =>
      simp only [if_true, Option.map_map]
      rfl

theorem isSome_ofPlace? (isField : place.node.kind = .publicFieldDefinition) :
    (AnnotatedProperty.ofPlace? config unit place).isSome =
      (FieldRecord.ofPlace config unit place).isAnnotated config := by
  rw [AnnotatedProperty.ofPlace?, if_pos isField, Option.isSome_map, Place.decoratorNamed?,
    List.isSome_find?, FieldRecord.isAnnotated, FieldRecord.ofPlace, List.any_map]
  rfl

theorem AnnotatedProperty.all_eq :
    AnnotatedProperty.all config unit =
      unit.fieldPlaces.filterMap (AnnotatedProperty.ofPlace? config unit) := by
  rw [all, SourceUnit.fieldPlaces, List.filterMap_filter]
  refine List.filterMap_congr fun place _ => ?_
  by_cases isField : place.node.kind = .publicFieldDefinition
  · rw [if_pos (by simpa using isField)]
  · rw [if_neg (by simpa using isField), ofPlace?, if_neg isField]

theorem SourceUnit.kind_of_mem_fieldPlaces (member : place ∈ unit.fieldPlaces) :
    place.node.kind = .publicFieldDefinition := by
  simpa using (List.mem_filter.1 member).2

/-- The annotated properties are those fields whose records are annotated. -/
theorem AnnotatedProperty.length_all :
    (AnnotatedProperty.all config unit).length =
      (unit.fields config).countP (FieldRecord.isAnnotated config) := by
  rw [all_eq, List.length_filterMap_eq_countP, SourceUnit.fields, List.countP_map]
  refine List.countP_congr fun place member => ?_
  rw [isSome_ofPlace? (SourceUnit.kind_of_mem_fieldPlaces member), Function.comp_apply]

theorem AnnotatedProperty.all_eq_nil_iff :
    AnnotatedProperty.all config unit = [] ↔
      ∀ field ∈ unit.fields config, field.isAnnotated config = false := by
  rw [← List.length_eq_zero_iff, length_all, List.countP_eq_zero]
  simp only [Bool.not_eq_true]

/-- The first annotated property is a field, and no field in front of it is annotated. -/
theorem AnnotatedProperty.exists_of_first? (first : first? config unit = some annotated) :
    ∃ front place rest, unit.fieldPlaces = front ++ place :: rest ∧
      (∀ other ∈ front, (FieldRecord.ofPlace config unit other).isAnnotated config = false) ∧
      ofPlace? config unit place = some annotated ∧
      (FieldRecord.ofPlace config unit place).isAnnotated config = true := by
  rw [first?, all_eq, List.head?_filterMap] at first
  obtain ⟨front, place, rest, split, own, before⟩ := List.findSome?_eq_some_iff.1 first
  have isField {other : Place} (member : other ∈ front ++ place :: rest) :
      other.node.kind = .publicFieldDefinition :=
    SourceUnit.kind_of_mem_fieldPlaces (split ▸ member)
  refine ⟨front, place, rest, split, fun other member => ?_, own, ?_⟩
  · rw [← isSome_ofPlace? (isField (List.mem_append_left _ member)), before other member]
    rfl
  · rw [← isSome_ofPlace? (isField (by simp)), own]
    rfl

/-- A complete field that is annotated is wrapped into the effect that it is to hold. -/
theorem AnnotatedProperty.exists_wrapEdit? (own : ofPlace? config unit place = some annotated)
    (complete : (FieldRecord.ofPlace config unit place).isComplete = true) :
    ∃ effect front, EffectRecord.due? config unit place = some effect ∧
      annotated.wrapEdit? config unit = some
        ⟨annotated.decorator.span.through annotated.property.span,
          front ++ effect.definition config⟩ := by
  unfold ofPlace? at own
  split at own
  · obtain ⟨decorator, found, rfl⟩ := Option.map_eq_some_iff.1 own
    simp only [FieldRecord.isComplete, FieldRecord.ofPlace, Bool.and_eq_true,
      Option.isSome_map] at complete
    obtain ⟨named, valued⟩ := complete
    obtain ⟨name, hasName⟩ := Option.isSome_iff_exists.1 named
    cases hasValue : place.node.child? .value with
    | none => simp [hasValue, FieldValue.ofNode?] at valued
    | some value =>
      have due : (EffectRecord.due? config unit place).isSome = true := by
        simp [EffectRecord.due?, found, hasName, hasValue]
      obtain ⟨effect, due⟩ := Option.isSome_iff_exists.1 due
      refine ⟨effect, Text.trimStart (unit.slice ⟨decorator.span.stop, name.span.start⟩), due, ?_⟩
      simp only [EffectRecord.due?, found, hasName, hasValue, Option.bind_eq_bind, Option.bind_some,
        Option.pure_def, Option.some.injEq] at due
      subst due
      simp only [wrapEdit?, value?, hasName, hasValue, options_eq, EffectRecord.definition,
        String.append_assoc]
  · cases own

end

end CreatorMigration
