import CreatorMigration.Tree.Node
import CreatorMigration.Tree.Token

/-! # Shapes

The grammar only decides how tokens are grouped. Its result is a `Shape`, a tree whose leaves stand
for tokens without saying which; `Shape.weave` then deals the tokens out to the leaves in order and
puts each comment into the smallest node that holds both of its neighbours.

* A statement may end without a semicolon. The comments that follow it on its line are then part of
  the statement, so the missing semicolon is a leaf too, which takes comments and no token.
-/

namespace CreatorMigration

inductive Shape where
  | leaf (kind : Kind) (role : Option Role)
  /-- A semicolon that is not written. -/
  | missingSemicolon
  /-- The end of the unit, with the comments in front of it. -/
  | finish
  | group (kind : Kind) (role : Option Role) (parts : List Shape)
deriving Inhabited

namespace Shape

/-- The shape in the given role. -/
def withRole (role : Role) : Shape → Shape
  | leaf kind _ => leaf kind (some role)
  | group kind _ parts => group kind (some role) parts
  | other => other

def hasKind (kind : Kind) : Shape → Bool
  | leaf other _ => other == kind
  | group other _ _ => other == kind
  | _ => false

/-! ## Weaving -/

/-- Nodes dealt out so far, the comments in front of them, and the tokens that are left. -/
structure Woven where
  lead : List Node
  nodes : List Node
  rest : List Token

def commentNode (comment : Comment) : Node := ⟨.comment, none, comment.span, []⟩

def commentNodes (comments : List Comment) : List Node := comments.map commentNode

/-- A node around the given ones, which are not none. -/
def enclose (kind : Kind) (role : Option Role) : List Node → List Node
  | [] => []
  | first :: rest =>
      let last := (first :: rest).getLast (List.cons_ne_nil _ _)
      [⟨kind, role, first.span.through last.span, first :: rest⟩]

/-- The nodes of two neighbours; the comments between them stand between them. -/
def Woven.followedBy (first second : Woven) : Woven :=
  if first.nodes.isEmpty then ⟨first.lead ++ second.lead, second.nodes, second.rest⟩
  else ⟨first.lead, first.nodes ++ second.lead ++ second.nodes, second.rest⟩

mutual

def weave : Shape → List Token → Option Woven
  | leaf kind role, token :: rest =>
      some ⟨commentNodes token.comments, [⟨kind, role, token.span, []⟩], rest⟩
  | missingSemicolon, token :: rest =>
      let (sameLine, later) := token.comments.span fun comment => !comment.lineBreak
      some ⟨commentNodes sameLine, [], { token with comments := later } :: rest⟩
  | finish, token :: rest => some ⟨commentNodes token.comments, [], rest⟩
  | group kind role parts, tokens =>
      (weaveAll parts tokens).map fun woven =>
        ⟨woven.lead, enclose kind role woven.nodes, woven.rest⟩
  | _, [] => none

def weaveAll : List Shape → List Token → Option Woven
  | [], tokens => some ⟨[], [], tokens⟩
  | shape :: shapes, tokens => do
      let first ← weave shape tokens
      let second ← weaveAll shapes first.rest
      some (first.followedBy second)

end

end Shape

end CreatorMigration
