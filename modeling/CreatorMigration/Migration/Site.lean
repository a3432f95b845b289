import CreatorMigration.Edit
import CreatorMigration.Naming
import CreatorMigration.Tree.Query

/-! # Sites

A `Site` is a way in which a unit uses an action class that a factory can take over: the class is
constructed, is a member of a union of types or is passed on to a call. Other uses stay as they are.

* `Site.ofPlace?` classifies an identifier by its surroundings.
* `Site.edit` is the edit that puts the factory in.
-/

namespace CreatorMigration

inductive Site where
  | construction (expression : Node)
  /-- The union that spans all members around the identifier. -/
  | unionMember (union : Node)
  | callArgument (identifier : Node)

namespace Site

/-- Whether the nodes around an identifier are the arguments of a call. -/
def isCallArgument (identifier : Node) : List Node → Bool
  | arguments :: call :: _ =>
      identifier.kind == .identifier && arguments.kind == .arguments && call.isCall
  | _ => false

def ofPlace? (place : Place) : Option Site :=
  match place.ancestors with
  | [] => none
  | parent :: above =>
      if parent.kind = .newExpression ∧ place.node.role = some .constructed then
        some (construction parent)
      else if parent.kind = .unionType then some (unionMember (parent.outermostUnion above))
      else if isCallArgument place.node place.ancestors then some (callArgument place.node)
      else none

end Site

/-- The factory that takes the place of an action class. -/
structure Factory where
  name : String
  /-- The name of the only parameter of the constructor. -/
  payloadField : Option String
deriving DecidableEq

namespace Factory

/-- A call of the factory that carries the first argument of a construction. -/
def call (factory : Factory) (argument : Option String) : String :=
  match argument with
  | none => factory.name ++ "()"
  | some argument =>
      factory.name ++ "(\x7b " ++ factory.payloadField.getD "payload" ++ ": " ++ argument ++
        " \x7d)"

end Factory

namespace Site

/-- The union of the actions that the factories of all members make. -/
def unionType (text : String) (union : Node) : String :=
  typeMadeBy (union.unionMembers.map fun member => Text.decapitalize (member.textIn text))

def edit (text : String) (factory : Factory) : Site → Edit
  | construction expression =>
      ⟨expression.span, factory.call (expression.callArguments.head?.map (Node.textIn text))⟩
  | unionMember union => ⟨union.span, unionType text union⟩
  | callArgument identifier => ⟨identifier.span, factory.name⟩

end Site

end CreatorMigration
