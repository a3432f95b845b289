import CreatorMigration.Proofs.Migration.Fallthrough

/-! # What stands around a switch

The migration gives up the whole body of a reducing function, but the table holds only what stands
in the case clauses of its switch. Everything else in the body is lost, be it in front of the switch,
behind it, around it or in its default clause.

* `ReducerReading.outside` lists these statements, `ReducerReading.unmatched` those that run for an
  action that no label matches.
* `nothing_dropped_iff` says when nothing is lost.
-/

namespace CreatorMigration

open Project Update

/-! ## Statements -/

namespace Node

mutual

/-- The statement itself, or the statements of a block in its place, in whatever depth. -/
def unblocked : Node → List Node
  | node@⟨kind, _, _, children⟩ =>
      if kind = .statementBlock then unblockedAll children else [node]

def unblockedAll : List Node → List Node
  | [] => []
  | child :: rest =>
      (if child.isNamed && !child.isComment then unblocked child else []) ++ unblockedAll rest

end

/-- Whether a node of the kind holds statements of the function that it stands in. -/
def holdsStatements : Kind → Bool
  | .statementBlock | .ifStatement | .elseClause | .forStatement | .forInStatement
  | .whileStatement | .doStatement | .tryStatement | .catchClause | .finallyClause
  | .switchStatement | .switchBody | .switchCase | .switchDefault | .labeledStatement
  | .withStatement => true
  | _ => false

mutual

/-- The declarations by `var` in a statement, which the whole function sees. -/
def hoisted : Node → List Node
  | node@⟨kind, _, _, children⟩ =>
      if kind = .variableDeclaration then [node]
      else if holdsStatements kind then hoistedAll children else []

def hoistedAll : List Node → List Node
  | [] => []
  | child :: rest => hoisted child ++ hoistedAll rest

end

/-- The nodes that carry the names which a statement declares if it is a declaration. -/
def declarators (statement : Node) : List Node :=
  ((DeclarationKind.ofKind? statement.kind).map (Declaration.carriers · statement)).getD []

end Node

namespace SourceUnit

variable (unit : SourceUnit)

/-- The texts that some nodes bind. -/
def textsBound (nodes : List Node) : List String :=
  ((nodes.filterMap binding?).flatMap boundNodes).map unit.textOf

/-- The names that the statements beside a statement see by it. -/
def namesDeclaredBy (statement : Node) : List String :=
  unit.textsBound ((statement :: statement.hoisted).flatMap Node.declarators)

/-- The names that some statements bind themselves, in any scope; scopes are not told apart. -/
def namesBoundIn (statements : List Node) : List String :=
  unit.textsBound (statements.flatMap Node.descendants)

/-- Whether a statement is a `return` of a name. -/
def returnsName (name : String) (statement : Node) : Bool :=
  statement.kind == .returnStatement &&
    match statement.namedParts with
    | [value] => value.kind == .identifier && unit.textOf value == name
    | _ => false

variable {unit}

/-- What returns a name declares none. -/
theorem namesDeclaredBy_of_returnsName {name : String} {statement : Node}
    (returns : unit.returnsName name statement = true) : unit.namesDeclaredBy statement = [] := by
  obtain ⟨kind, role, span, children⟩ := statement
  obtain ⟨isReturn, _⟩ := Bool.and_eq_true_iff.1 returns
  obtain rfl : kind = .returnStatement := by simpa using isReturn
  have nothingHoisted : Node.hoisted ⟨.returnStatement, role, span, children⟩ = [] := by
    simp [Node.hoisted, Node.holdsStatements]
  rw [namesDeclaredBy, nothingHoisted]
  rfl

end SourceUnit

/-! ## The body of a reducing function -/

namespace ReducerReading

variable (reading : ReducerReading)

def bodyStatements : List Node :=
  ((reading.declaration.node.child? .body).map Node.unblocked).getD []

/-- Whether a statement is the switch that is read. -/
def isSwitch (statement : Node) : Bool :=
  statement.kind == .switchStatement && statement.span == reading.switch.span

def writtenClauses : List WrittenClause := WrittenClause.ofSwitch reading.unit reading.switch

/-- The statements of the body with others in the place of the switch. -/
def withSwitchAs (statements : List Node) : List Node :=
  reading.bodyStatements.flatMap fun statement =>
    if reading.isSwitch statement then Node.unblockedAll statements else [statement]

/-- The statements outside of the case clauses; one that holds the switch counts as a whole. -/
def outside : List Node :=
  reading.withSwitchAs
    ((reading.writtenClauses.filter fun clause => clause.label.isNone).flatMap
      WrittenClause.statements)

/-- The statements that run for an action that no label matches, if none of them leaves the
function: such an action enters the switch at its default clause. -/
def unmatched : List Node :=
  reading.withSwitchAs
    (WrittenClause.statementsRun
      (reading.writtenClauses.dropWhile fun clause => clause.label.isSome))

def returnsState (statement : Node) : Bool :=
  reading.unit.returnsName reading.signature.state statement

/-- Some of the statements declare a name that the clause mentions and does not bind itself. -/
def DeclaredFor (clause : HandledClause) (statements : List Node) : Prop :=
  ∃ statement ∈ statements, ∃ name ∈ reading.unit.namesDeclaredBy statement,
    SwitchClause.mentions reading.unit name clause.statements = true ∧
      name ∉ reading.unit.namesBoundIn clause.statements

/-- The case clauses are all that matters in the body. -/
structure IsCasesOnly : Prop where
  outside : ∀ statement ∈ reading.outside, reading.returnsState statement = true
  unmatched : ∃ first ∈ reading.unmatched.head?, reading.returnsState first = true
  declared : ∀ clause ∈ HandledClause.ofSwitch reading.unit reading.switch,
    ¬ reading.DeclaredFor clause
      (reading.outside ++ (clause.before ++ clause.after).flatMap WrittenClause.statements)

variable {reading}

theorem DeclaredFor.append_iff {clause : HandledClause} {first second : List Node} :
    reading.DeclaredFor clause (first ++ second) ↔
      reading.DeclaredFor clause first ∨ reading.DeclaredFor clause second := by
  simp only [DeclaredFor, List.mem_append, or_and_right, exists_or]

theorem not_declaredFor_of_returnsState {clause : HandledClause} {statements : List Node}
    (returns : ∀ statement ∈ statements, reading.returnsState statement = true) :
    ¬ reading.DeclaredFor clause statements := by
  rintro ⟨statement, member, name, declares, _⟩
  rw [SourceUnit.namesDeclaredBy_of_returnsName (returns statement member)] at declares
  exact List.not_mem_nil declares

/-- Among statements that return the state only case clauses can declare anything. -/
theorem isCasesOnly_iff :
    reading.IsCasesOnly ↔
      (∀ statement ∈ reading.outside, reading.returnsState statement = true) ∧
        (∃ first ∈ reading.unmatched.head?, reading.returnsState first = true) ∧
        ∀ clause ∈ HandledClause.ofSwitch reading.unit reading.switch,
          ∀ other ∈ clause.before ++ clause.after,
            ¬ reading.DeclaredFor clause other.statements := by
  have ofClauses {clause : HandledClause} {others : List WrittenClause} :
      reading.DeclaredFor clause (others.flatMap WrittenClause.statements) ↔
        ∃ other ∈ others, reading.DeclaredFor clause other.statements := by
    induction others with
    | nil => simp [DeclaredFor]
    | cons first rest inductionHypothesis =>
      rw [List.flatMap_cons, DeclaredFor.append_iff, inductionHypothesis, List.exists_mem_cons_iff]
  constructor
  · rintro ⟨outside, unmatched, declared⟩
    refine ⟨outside, unmatched, fun clause member other otherMember declares => ?_⟩
    exact declared clause member
      (DeclaredFor.append_iff.2 (.inr (ofClauses.2 ⟨other, otherMember, declares⟩)))
  · rintro ⟨outside, unmatched, apart⟩
    refine ⟨outside, unmatched, fun clause member declares => ?_⟩
    rcases DeclaredFor.append_iff.1 declares with declares | declares
    · exact not_declaredFor_of_returnsState outside declares
    · obtain ⟨other, otherMember, declares⟩ := ofClauses.1 declares
      exact apart clause member other otherMember declares

end ReducerReading

/-! ## The migration -/

/-- Where a function with a switch is found, the migration leaves nothing to be done by hand. -/
theorem ReducerReading.IsOf.requiresHand_eq_false {config : Config} {path : Path}
    {types : Option ActionTypes} {project left : Project} {reading : ReducerReading}
    (read : reading.IsOf config path project) {error : MigrationError}
    (ran : migrateReducer config path types project = .error error left) :
    error.requiresHand = false := by
  cases called : reading.unit.calls config.creators.createReducer with
  | true =>
    rw [read.migrateReducer_of_calls types called] at ran
    cases ran
  | false =>
    obtain failed | ⟨_, _, got, rest⟩ := bind_eq_error_iff.1 ran
    · cases failed
    obtain ⟨rfl, rfl⟩ := get_eq_ok_iff.1 got
    simp only [read.found, called, read.function, read.switch] at rest
    obtain failed | ⟨_, _, _, answered⟩ := bind_eq_error_iff.1 rest
    · obtain ⟨cause, _, rfl⟩ := withError_eq_error_iff.1 failed
      rfl
    · cases answered

/-- Nothing of a reducing function is lost: the migration skips its unit, or only the case clauses
matter in the function, or the function is left to be migrated by hand. -/
def NothingDropped (config : Config) (path : Path) (types : Option ActionTypes) (project : Project)
    (reading : ReducerReading) : Prop :=
  (∃ reason, migrateReducer config path types project = .ok (.skipped reason) project) ∨
    reading.IsCasesOnly ∨
    migrateReducer config path types project =
      .error (.missingSwitch path reading.signature.name) project

/-- The migration takes the body of every function with a switch away, whatever stands around the
switch. So something is lost unless the unit is skipped as one that is migrated already, or all that
stands outside of the case clauses returns the state, the function comes to such a `return` for an
action that no label matches, and no clause uses what another one declares. -/
theorem nothing_dropped_iff {config : Config} {path : Path} {types : Option ActionTypes}
    {project : Project} {reading : ReducerReading} (read : reading.IsOf config path project) :
    (∃ edited, Update.apply path (reading.edits config) project = .ok () edited) ∧
      (NothingDropped config path types project reading ↔
        reading.unit.calls config.creators.createReducer = true ∨
          (∀ statement ∈ reading.outside, reading.returnsState statement = true) ∧
            (∃ first ∈ reading.unmatched.head?, reading.returnsState first = true) ∧
            ∀ clause ∈ HandledClause.ofSwitch reading.unit reading.switch,
              ∀ other ∈ clause.before ++ clause.after,
                ¬ reading.DeclaredFor clause other.statements) := by
  refine ⟨read.exists_apply, ?_⟩
  have notRefused : ¬ migrateReducer config path types project =
      .error (.missingSwitch path reading.signature.name) project := by
    intro ran
    cases read.requiresHand_eq_false ran
  rw [NothingDropped, or_iff_left notRefused, ReducerReading.isCasesOnly_iff]
  cases called : reading.unit.calls config.creators.createReducer with
  | true => exact iff_of_true (.inl ⟨_, read.migrateReducer_of_calls types called⟩) (.inl rfl)
  | false =>
    rw [or_iff_right Bool.false_ne_true, or_iff_right]
    rintro ⟨_, skipped⟩
    exact read.migrateReducer_ne_skipped called skipped

/-- A constant in front of the switch is used in a case clause. -/
def constantInFront : Project :=
  ofSources ⟨""⟩ {}
    [(⟨"a.ts"⟩,
      "function xReducer(s=0,a)\x7bconst k=2;switch(a.type)\x7bcase A:return s+k\x7dreturn s\x7d")]

/-- The constant is not there any more. -/
def withoutConstant : String :=
  "const reducer = createReducer(\n  0,\n  on(a, s => s+k),\n);\n\n" ++
    "function xReducer(s=0,a: Action)\x7b\n  return reducer(s, a);\n\x7d"

theorem exists_reading_constantInFront :
    ∃ reading : ReducerReading, reading.IsOf {} ⟨"a.ts"⟩ constantInFront ∧
      reading.unit.calls ({} : Config).creators.createReducer = false ∧
      (∃ statement ∈ reading.outside, reading.returnsState statement = false) ∧
      (Edit.applyAll reading.unit.text (reading.edits {})).toOption = some withoutConstant := by
  have found : ∃ unit ∈ constantInFront.unit? ⟨"a.ts"⟩,
      ∃ declaration ∈ reducingFunction? ({} : Config).naming unit,
      ∃ switch ∈ switchOf? declaration.node,
        unit.calls ({} : Config).creators.createReducer = false ∧
        (∃ statement ∈ ReducerReading.outside ⟨unit, declaration, switch⟩,
          ReducerReading.returnsState ⟨unit, declaration, switch⟩ statement = false) ∧
        (Edit.applyAll unit.text
          (ReducerReading.edits {} ⟨unit, declaration, switch⟩)).toOption =
            some withoutConstant := by
    decide +kernel
  obtain ⟨unit, found, declaration, function, switch, first, fresh, lost, edited⟩ := found
  exact ⟨⟨unit, declaration, switch⟩, ⟨found, function, first⟩, fresh, lost, edited⟩

theorem nothing_dropped_iff_constantInFront :
    ∃ reading : ReducerReading, reading.IsOf {} ⟨"a.ts"⟩ constantInFront ∧
      (∃ edited, Update.apply ⟨"a.ts"⟩ (reading.edits {}) constantInFront = .ok () edited) ∧
      (NothingDropped {} ⟨"a.ts"⟩ none constantInFront reading ↔
        reading.unit.calls ({} : Config).creators.createReducer = true ∨
          (∀ statement ∈ reading.outside, reading.returnsState statement = true) ∧
            (∃ first ∈ reading.unmatched.head?, reading.returnsState first = true) ∧
            ∀ clause ∈ HandledClause.ofSwitch reading.unit reading.switch,
              ∀ other ∈ clause.before ++ clause.after,
                ¬ reading.DeclaredFor clause other.statements) := by
  obtain ⟨reading, read, _⟩ := exists_reading_constantInFront
  exact ⟨reading, read, nothing_dropped_iff read⟩

/-- The handler that is registered for the clause uses a constant that is gone. -/
theorem not_nothing_dropped_constantInFront :
    ∃ reading : ReducerReading, reading.IsOf {} ⟨"a.ts"⟩ constantInFront ∧
      (Edit.applyAll reading.unit.text (reading.edits {})).toOption = some withoutConstant ∧
      ¬ NothingDropped {} ⟨"a.ts"⟩ none constantInFront reading := by
  obtain ⟨reading, read, fresh, ⟨statement, member, lost⟩, edited⟩ :=
    exists_reading_constantInFront
  refine ⟨reading, read, edited, ?_⟩
  rintro (⟨reason, skipped⟩ | ⟨returns, _, _⟩ | refused)
  · exact read.migrateReducer_ne_skipped fresh skipped
  · exact absurd (returns statement member) (by simp [lost])
  · cases read.requiresHand_eq_false refused

end CreatorMigration
