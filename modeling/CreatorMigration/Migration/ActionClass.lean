import CreatorMigration.Config.Basic
import CreatorMigration.Table
import CreatorMigration.Unit.Declaration

/-! # Action classes

What a unit says about its actions before it is migrated.

* `SourceUnit.actionTypes` reads the members of an enum with their values.
* `SourceUnit.actionClass?` reads a class: its discriminator and the parameters of its constructor.
-/

namespace CreatorMigration

/-- The members of an enum of action types with the texts of their values. -/
abbrev ActionTypes := Table String String

/-- The value of the field that tells actions apart. -/
inductive Discriminator where
  /-- A member of an enum. -/
  | member (qualifier name : String)
  /-- A string literal, with its quotes. -/
  | literal (text : String)
  | other (text : String)
deriving DecidableEq

structure ConstructorParameter where
  name : String
  isOptional : Bool
  type : Option String

structure ActionClass where
  name : String
  discriminator : Option Discriminator
  parameters : List ConstructorParameter

namespace SourceUnit

/-! ## Enums -/

def actionType? (unit : SourceUnit) (member : Node) : Option (String × String) :=
  match member.kind, member.child? .name, member.child? .value with
  | .enumAssignment, some name, some value => some (unit.textOf name, unit.textOf value)
  | _, _, _ => none

/-- The members with a value; a member that is repeated has its last value. -/
def actionTypes (unit : SourceUnit) (enum : Node) : ActionTypes :=
  match enum.child? .body with
  | none => []
  | some body => Table.ofEntries (body.namedParts.filterMap unit.actionType?)

/-! ## Classes -/

def discriminatorOf (unit : SourceUnit) (value : Node) : Discriminator :=
  match value.kind, value.child? .object, value.child? .property with
  | .memberExpression, some object, some property =>
      .member (unit.textOf object) (unit.textOf property)
  | .string, _, _ => .literal (unit.textOf value)
  | _, _, _ => .other (unit.textOf value)

/-- The nodes of a list of parameters that are parameters. -/
def parameterNodes (list : Node) : List Node :=
  list.namedParts.filter fun node =>
    node.kind == .requiredParameter || node.kind == .optionalParameter

def constructorParameter? (unit : SourceUnit) (node : Node) : Option ConstructorParameter :=
  (node.child? .pattern).map fun pattern =>
    { name := unit.textOf pattern
      isOptional := node.kind == .optionalParameter
      type := ((node.child? .type).bind fun ascription => ascription.namedParts.head?).map
        unit.textOf }

def isMemberNamed (unit : SourceUnit) (name : String) (member : Node) : Bool :=
  (member.child? .name).any fun node => unit.textOf node == name

/-- Adds what a member of the class says; later members win over earlier ones. -/
def readMember (unit : SourceUnit) (naming : Naming) (read : ActionClass) (member : Node) :
    ActionClass :=
  match member.kind with
  | .publicFieldDefinition =>
      if unit.isMemberNamed naming.discriminatorField member then
        { read with discriminator := (member.child? .value).map unit.discriminatorOf }
      else read
  | .methodDefinition =>
      match unit.isMemberNamed "constructor" member, member.child? .parameters with
      | true, some list =>
          { read with
            parameters := (parameterNodes list).filterMap unit.constructorParameter? }
      | _, _ => read
  | _ => read

/-- The reading of a class that has a name. -/
def actionClass? (unit : SourceUnit) (naming : Naming) (declaration : Declaration) :
    Option ActionClass :=
  match unit.nameOf? declaration, declaration.node.child? .body with
  | some name, some body =>
      some (body.namedParts.foldl (unit.readMember naming)
        { name, discriminator := none, parameters := [] })
  | _, _ => none

/-- Whether the unit calls a function anywhere. -/
def calls (unit : SourceUnit) (function : String) : Bool :=
  unit.tree.hasCallOf unit.text function

end SourceUnit

end CreatorMigration
