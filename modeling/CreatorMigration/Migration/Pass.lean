import CreatorMigration.BoundedCall
import CreatorMigration.Config.Basic
import CreatorMigration.Unit.Basic

/-! # Passes

A `Pass` changes calls within the expression of an effect pipeline.

* `Pass.edits` gives the edits of one round, each computed from the unit as it stands.
* `Pass.round` drops those that change nothing and keeps the outermost of those that overlap. A pass
  is done when a round is empty.
-/

namespace CreatorMigration

inductive Pass where
  /-- Splits calls of the combinator that take too many arguments. -/
  | aritySafety
  /-- Filters by factories instead of types. -/
  | filterOperator
  /-- Gives the branch operator its type arguments. -/
  | branchOperator
  /-- Calls operators by their new names. -/
  | rename
deriving DecidableEq

namespace Pass

def name : Pass → String
  | aritySafety => "arity-safety"
  | filterOperator => "filter-operator"
  | branchOperator => "branch-operator"
  | rename => "rename"

/-- All passes in the order in which they are run. -/
def all : List Pass := [aritySafety, filterOperator, branchOperator, rename]

/-! ## Arity -/

def isOversized (unit : SourceUnit) (combinator : String) (node : Node) : Bool :=
  node.calleeIs unit.text (Text.includes combinator) &&
    decide (arityLimit < node.callArguments.length)

/-- Whether a call is oversized and holds no other oversized call. -/
def isInnermostOversized (unit : SourceUnit) (combinator : String) (node : Node) : Bool :=
  isOversized unit combinator node &&
    !(node.descendants.drop 1).any (isOversized unit combinator)

def boundingEdit? (unit : SourceUnit) (call : Node) : Option Edit :=
  (call.child? .callee).map fun callee =>
    ⟨call.span,
      (BoundedCall.ofArguments (unit.textOf callee) (call.callArguments.map unit.textOf)).render⟩

def arityEdits (config : Config) (unit : SourceUnit) (pipeline : Node) : List Edit :=
  (pipeline.descendants.filter
    (isInnermostOversized unit config.pipeline.combinator)).filterMap (boundingEdit? unit)

/-! ## Filters -/

def isMarker (config : Config) (argument : String) : Bool :=
  config.isBootstrapMarker (unqualified argument)

/-- What an argument is replaced by; a bootstrap marker stays as it is written. -/
def filterArgument (config : Config) (argument : String) : String :=
  if isMarker config argument then argument else factoryName argument

/-- The type arguments that a call keeps; only one with a bootstrap marker keeps them. -/
def keptTypes (config : Config) (unit : SourceUnit) (call : Node) : String :=
  if (call.callArguments.map unit.textOf).any (isMarker config) then
    (call.typeArguments?.map unit.textOf).getD ""
  else ""

def filterEdit? (config : Config) (unit : SourceUnit) (call : Node) : Option Edit :=
  (call.child? .callee).map fun callee =>
    let renamed := (call.callArguments.map unit.textOf).map (filterArgument config)
    ⟨call.span,
      unit.textOf callee ++ keptTypes config unit call ++ "(" ++ Text.join ", " renamed ++ ")"⟩

def filterEdits (config : Config) (unit : SourceUnit) (pipeline : Node) : List Edit :=
  (pipeline.callsOf unit.text config.pipeline.filterOperator).filterMap (filterEdit? config unit)

/-! ## Branches -/

def branchEdit? (config : Config) (unit : SourceUnit) (call : Node) : Option Edit :=
  match call.child? .callee, call.typeArguments? with
  | some callee, none =>
      if unit.textOf callee = config.pipeline.branchOperator then
        let type := config.pipeline.branchType
        some (Edit.insert callee.span.stop ("<" ++ type ++ ", " ++ type ++ ">"))
      else none
  | _, _ => none

def branchEdits (config : Config) (unit : SourceUnit) (pipeline : Node) : List Edit :=
  (pipeline.callsOf unit.text config.pipeline.branchOperator).filterMap (branchEdit? config unit)

/-! ## Names -/

def renameEdit? (config : Config) (unit : SourceUnit) (node : Node) : Option Edit :=
  match node.isCall, node.child? .callee with
  | true, some callee =>
      if callee.kind = .identifier then
        (config.pipeline.renames.find? (unit.textOf callee)).map fun name => ⟨callee.span, name⟩
      else none
  | _, _ => none

def renameEdits (config : Config) (unit : SourceUnit) (pipeline : Node) : List Edit :=
  pipeline.descendants.filterMap (renameEdit? config unit)

/-! ## Rounds -/

def edits (config : Config) (unit : SourceUnit) (pipeline : Node) : Pass → List Edit
  | aritySafety => arityEdits config unit pipeline
  | filterOperator => filterEdits config unit pipeline
  | branchOperator => branchEdits config unit pipeline
  | rename => renameEdits config unit pipeline

def roundEdits (config : Config) (unit : SourceUnit) (pipeline : Node) (pass : Pass) : List Edit :=
  Edit.outermost ((pass.edits config unit pipeline).filter (Edit.changes unit.text))

end Pass

end CreatorMigration
