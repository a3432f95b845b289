import CreatorMigration.BoundedCall
import CreatorMigration.Migration.Clause
import CreatorMigration.Migration.Outcome
import CreatorMigration.Naming
import CreatorMigration.Project.Imports

/-! # Migration of reducers

A reducing function decides by a switch over the type of its action. The migration registers a
handler per clause in a table in front of the function, which is left with passing its arguments on.

* `registrations` renders the handlers, with the labels of a clause spread over several
  registrations if there are too many for one.
* `foreignLabels` lists the labels that the store itself does not declare.
-/

namespace CreatorMigration

structure ReducerChanges where
  clauses : Nat
  registrations : Nat
  /-- Labels of actions that other stores declare. -/
  dependencies : List String

/-! ## The table -/

/-- The names that a clause is registered under, in groups of those that one registration takes. -/
def SwitchClause.nameGroups (clause : SwitchClause) : List (List String) :=
  labelGroups (factoryName clause.label) (clause.preceding.map factoryName)

/-- The registrations of one clause. -/
def registrationsOf (creators : CreatorNames) (signature : ReducerSignature)
    (clause : SwitchClause) : List String :=
  let handler :=
    clause.parameterUse.render signature.state signature.action ++ " => " ++ clause.body
  clause.nameGroups.map fun group =>
    creators.on ++ "(" ++ Text.join ", " group ++ ", " ++ handler ++ ")"

def registrations (creators : CreatorNames) (signature : ReducerSignature)
    (clauses : List SwitchClause) : List String :=
  clauses.flatMap (registrationsOf creators signature)

def tableDeclaration (creators : CreatorNames) (signature : ReducerSignature)
    (registered : List String) : String :=
  "const " ++ creators.tableName ++ " = " ++ creators.createReducer ++ "(\n  " ++
    Text.join ",\n  " (signature.initialState :: registered) ++ ",\n);\n\n"

/-- The labels of clauses whose actions are not among the types of the store. -/
def foreignLabels (types : ActionTypes) (clauses : List SwitchClause) : List String :=
  (clauses.flatMap SwitchClause.labels).filter fun label => !types.contains (unqualified label)

/-! ## The function -/

/-- Gives the function a second parameter of the type of all events. -/
def parameterEdit (creators : CreatorNames) (signature : ReducerSignature) (list : Node) : Edit :=
  let event := signature.action ++ ": " ++ creators.eventType
  match SourceUnit.parameterNodes list with
  | _ :: second :: _ => ⟨second.span, event⟩
  | [state] => Edit.insert state.span.stop (", " ++ event)
  | [] => ⟨list.span, "(" ++ signature.state ++ ", " ++ event ++ ")"⟩

/-- Leaves the function with a call of the table. -/
def delegationEdit (creators : CreatorNames) (signature : ReducerSignature) (body : Node) : Edit :=
  ⟨body.span, "\x7b\n  return " ++ creators.tableName ++ "(" ++ signature.state ++ ", " ++
    signature.action ++ ");\n\x7d"⟩

def reducerEdits (creators : CreatorNames) (unit : SourceUnit) (declaration : Declaration)
    (signature : ReducerSignature) (table : String) : List Edit :=
  Edit.insert (unit.documentedStart declaration.statement) table ::
    ((declaration.node.child? .parameters).map (parameterEdit creators signature)).toList ++
      ((declaration.node.child? .body).map (delegationEdit creators signature)).toList

/-! ## The migration -/

/-- The first function whose name ends like that of a reducing function. -/
def reducingFunction? (naming : Naming) (unit : SourceUnit) : Option Declaration :=
  (unit.declarationsOfKind .function).find? fun declaration =>
    (unit.nameOf? declaration).any (Text.hasEnd naming.reducerFunctionSuffix)

/-- The first switch statement anywhere in a function. -/
def switchOf? (function : Node) : Option Node :=
  function.descendants.find? fun node => node.kind == .switchStatement

/-- Applies the edits and imports the function that registers handlers, used or not. -/
def finishReducer (config : Config) (path : Path) (edits : List Edit) :
    Update ProjectError Unit := do
  Update.apply path edits
  let name := config.creators.on
  let _ ← Project.addImport path name ((config.library.find? name).getD "@ngrx/store")
  let _ ← Project.alignImports config.library path

/-- Migrates the reducer at a path. Without the types of the store no label counts as foreign. -/
def migrateReducer (config : Config) (path : Path) (types : Option ActionTypes) :
    Migration (Outcome ReducerChanges) := do
  match (← get).unit? path with
  | none => return .skipped .unitAbsent
  | some unit =>
      if unit.calls config.creators.createReducer then return .skipped .alreadyMigrated
      match reducingFunction? config.naming unit with
      | none => return .skipped .noReducerFunction
      | some declaration =>
          let signature := ReducerSignature.ofFunction unit declaration.node
          match switchOf? declaration.node with
          | none => throw (.missingSwitch path signature.name)
          | some switch =>
              let clauses := SwitchClause.ofSwitch unit signature switch
              let registered := registrations config.creators signature clauses
              let table := tableDeclaration config.creators signature registered
              Migration.lift <| finishReducer config path <|
                reducerEdits config.creators unit declaration signature table
              return .migrated
                { clauses := clauses.length
                  registrations := registered.length
                  dependencies := (types.map (foreignLabels · clauses)).getD [] }

end CreatorMigration
