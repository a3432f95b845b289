import CreatorMigration.Migration.ActionClass

/-! # Clauses

The clauses of the switch statement of a reducing function, read as handlers of actions.

* `SwitchClause` keeps the labels of a clause with those of the empty clauses in front of it.
* `ParameterUse` says which parameters a handler declares.
-/

namespace CreatorMigration

/-! ## Handlers -/

/-- Which of its two parameters a handler uses. -/
inductive ParameterUse where
  | stateAndAction
  | stateOnly
  | actionOnly
  | neither
deriving DecidableEq

namespace ParameterUse

def ofUse : Bool → Bool → ParameterUse
  | true, true => stateAndAction
  | true, false => stateOnly
  | false, true => actionOnly
  | false, false => neither

/-- The parameters in front of the arrow, by the names that the reducing function gives them. -/
def render (state action : String) : ParameterUse → String
  | stateAndAction => "(" ++ state ++ ", " ++ action ++ ")"
  | stateOnly => state
  | actionOnly => "(_, " ++ action ++ ")"
  | neither => "()"

end ParameterUse

/-! ## Reducing functions -/

/-- What the head of a reducing function says. -/
structure ReducerSignature where
  name : String
  state : String
  action : String
  initialState : String

namespace ReducerSignature

def ofFunction (unit : SourceUnit) (function : Node) : ReducerSignature :=
  let parameters := ((function.child? .parameters).map SourceUnit.parameterNodes).getD []
  let pattern (parameter : Option Node) : Option String :=
    (parameter.bind fun node => node.child? .pattern).map unit.textOf
  let initial := (parameters.head?.bind fun node => node.child? .value).map unit.textOf
  { name := ((function.child? .name).map unit.textOf).getD ""
    state := (pattern parameters.head?).getD "state"
    action := (pattern parameters[1]?).getD "action"
    initialState := initial.getD "initialState" }

end ReducerSignature

/-! ## Clauses -/

/-- A clause with statements. -/
structure SwitchClause where
  label : String
  body : String
  usesState : Bool
  usesAction : Bool
  /-- The labels of the empty clauses that run into this one. -/
  preceding : List String

namespace SwitchClause

def parameterUse (clause : SwitchClause) : ParameterUse :=
  ParameterUse.ofUse clause.usesState clause.usesAction

def labels (clause : SwitchClause) : List String := clause.preceding ++ [clause.label]

/-- Whether a name stands anywhere in the statements. -/
def mentions (unit : SourceUnit) (name : String) (statements : List Node) : Bool :=
  statements.any fun statement => statement.descendants.any fun node =>
    (node.kind == .identifier || node.kind == .shorthandPropertyIdentifier) &&
      unit.textOf node == name

def isUnlabeledBreak (statement : Node) : Bool :=
  statement.kind == .breakStatement && !statement.hasChild .label

/-- The statements of a clause that is a single block, or those of the clause itself. -/
def innerStatements : List Node → List Node
  | [only] => if only.kind = .statementBlock then only.namedParts else [only]
  | statements => statements

/-- The statements in front of a `break` at the end of a clause or of its only block. -/
def beforeBreak? (statements : List Node) : Option (List Node) :=
  let inner := innerStatements statements
  if inner.getLast?.any isUnlabeledBreak then some inner.dropLast else none

/-- The bytes from the first to the last of some statements. -/
def spanOf : List Node → Option Span
  | [] => none
  | first :: rest => some (first.span.through ((rest.getLast?).getD first).span)

/-- The number of bytes between the start of a node and the line feed in front of it. -/
def columnOf (text : String) (node : Node) : Nat :=
  Text.size (Text.afterLast '\n' (Text.slice text ⟨0, node.span.start⟩))

/-- A clause that leaves by `break` runs its statements and answers with the state it was given. -/
def bodyBeforeBreak (unit : SourceUnit) (state : String) (statements : List Node) : String :=
  match spanOf statements, statements.getLast? with
  | some span, some last =>
      let indent := String.ofList (List.replicate (columnOf unit.text last) ' ')
      "\x7b\n" ++ unit.slice span ++ "\n" ++ indent ++ "return " ++ state ++ ";\n\x7d"
  | _, _ => state

/-- The body of an arrow function that answers with an expression. -/
def conciseBody (unit : SourceUnit) (expression : Node) : String :=
  if expression.kind = .object ∨ expression.kind = .sequenceExpression then
    "(" ++ unit.textOf expression ++ ")"
  else unit.textOf expression

def blockBody (unit : SourceUnit) (statements : List Node) : String :=
  match spanOf statements with
  | some span => "\x7b\n" ++ unit.slice span ++ "\n\x7d"
  | none => "\x7b\x7d"

/-- A block stays, a lone `return` of a value becomes the value, and all else is put in a block. -/
def bodyOf (unit : SourceUnit) (statements : List Node) : String :=
  match statements with
  | [only] =>
      match only.kind, only.namedParts with
      | .statementBlock, _ => unit.textOf only
      | .returnStatement, value :: _ => conciseBody unit value
      | _, _ => blockBody unit statements
  | _ => blockBody unit statements

def ofStatements (unit : SourceUnit) (signature : ReducerSignature) (label : String)
    (preceding : List String) (statements : List Node) : SwitchClause :=
  match beforeBreak? statements with
  | some rest =>
      { label
        body := bodyBeforeBreak unit signature.state rest
        usesState := true
        usesAction := mentions unit signature.action rest
        preceding }
  | none =>
      { label
        body := bodyOf unit statements
        usesState := mentions unit signature.state statements
        usesAction := mentions unit signature.action statements
        preceding }

/-- The label of a case clause and its statements. -/
def caseParts? (unit : SourceUnit) (clause : Node) : Option (String × List Node) :=
  if clause.kind = .switchCase then
    (clause.child? .value).map fun value =>
      (unit.textOf value, clause.namedParts.filter fun part => part.role != some .value)
  else none

/-- Reads case clauses in order; the labels of empty ones wait for the next clause with statements,
and those that wait in the end are dropped. -/
def readCases (unit : SourceUnit) (signature : ReducerSignature) (waiting : List String) :
    List (String × List Node) → List SwitchClause
  | [] => []
  | (label, []) :: rest => readCases unit signature (waiting ++ [label]) rest
  | (label, statements) :: rest =>
      ofStatements unit signature label waiting statements :: readCases unit signature [] rest

def ofSwitch (unit : SourceUnit) (signature : ReducerSignature) (switch : Node) :
    List SwitchClause :=
  match switch.child? .body with
  | none => []
  | some body =>
      readCases unit signature [] (body.namedParts.filterMap (caseParts? unit))

end SwitchClause

end CreatorMigration
