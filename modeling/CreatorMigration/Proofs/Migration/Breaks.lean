import CreatorMigration.Proofs.Migration.Scopes

/-! # Breaks of a switch

A `break` without a label leaves the nearest loop or switch around it. The switch of a reducing
function is gone once its clauses are handlers, so no handler may hold a `break` that was to leave
it, and where there was one the handler has to answer with its state.

* `Node.breaksOut` lists the breaks in a statement that leave what stands around the statement.
* `breaks_answered_iff` says when the handler of a clause holds none of them and answers instead.
-/

namespace CreatorMigration

open Project Update

/-! ## Breaks -/

namespace Node

/-- Whether a `break` below a node of the kind leaves that node. -/
def endsByBreak : Kind → Bool
  | .forStatement | .forInStatement | .whileStatement | .doStatement | .switchStatement => true
  | _ => false

mutual

/-- The breaks without a label in a statement that no loop and no switch in it encloses. -/
def breaksOut : Node → List Node
  | node@⟨kind, _, _, children⟩ =>
      if SwitchClause.isUnlabeledBreak node then [node]
      else if endsByBreak kind then []
      else breaksOutAll children

def breaksOutAll : List Node → List Node
  | [] => []
  | child :: rest =>
      (if child.isNamed && !child.isComment then breaksOut child else []) ++ breaksOutAll rest

end

theorem breaksOut_eq (node : Node) :
    node.breaksOut =
      if SwitchClause.isUnlabeledBreak node then [node]
      else if endsByBreak node.kind then []
      else node.namedParts.flatMap breaksOut := by
  have all (nodes : List Node) : breaksOutAll nodes =
      (nodes.filter fun child => child.isNamed && !child.isComment).flatMap breaksOut := by
    induction nodes with
    | nil => rfl
    | cons child rest inductionHypothesis =>
      rw [breaksOutAll, inductionHypothesis, List.filter_cons]
      split <;> simp
  obtain ⟨kind, role, span, children⟩ := node
  rw [breaksOut, all]
  rfl

end Node

/-! ## The statements of a handler -/

namespace SwitchClause

open Node

/-- The `break` at the end of a clause or of its only block. -/
def lastBreak? (statements : List Node) : Option Node :=
  (innerStatements statements).getLast?.filter isUnlabeledBreak

/-- The statements that the handler of a clause performs. -/
def statementsKept (statements : List Node) : List Node :=
  (beforeBreak? statements).getD statements

theorem flatMap_breaksOut_innerStatements (statements : List Node) :
    (innerStatements statements).flatMap breaksOut = statements.flatMap breaksOut := by
  unfold innerStatements
  split
  · next only =>
    split
    · next block =>
      have own : isUnlabeledBreak only = false := by simp [isUnlabeledBreak, block]
      rw [List.flatMap_singleton, breaksOut_eq only, own, block]
      rfl
    · rfl
  · rfl

theorem lastBreak?_eq_none_iff {statements : List Node} :
    lastBreak? statements = none ↔ beforeBreak? statements = none := by
  unfold lastBreak? beforeBreak?
  cases found : (innerStatements statements).getLast? with
  | none => simp [found]
  | some last => cases own : isUnlabeledBreak last <;> simp [found, own]

/-- All breaks that leave the switch are those that the handler still performs and the last one. -/
theorem flatMap_breaksOut (statements : List Node) :
    statements.flatMap breaksOut =
      (statementsKept statements).flatMap breaksOut ++ (lastBreak? statements).toList := by
  rw [← flatMap_breaksOut_innerStatements]
  cases found : lastBreak? statements with
  | none =>
    rw [statementsKept, lastBreak?_eq_none_iff.1 found, Option.getD_none, Option.toList_none,
      List.append_nil, flatMap_breaksOut_innerStatements]
  | some last =>
    obtain ⟨isLast, isBreak⟩ := Option.filter_eq_some_iff.1 found
    have before : beforeBreak? statements = some (innerStatements statements).dropLast := by
      simp [beforeBreak?, isLast, isBreak]
    have parts : innerStatements statements = (innerStatements statements).dropLast ++ [last] :=
      (List.dropLast_append_getLast? last isLast).symm
    rw [statementsKept, before, Option.getD_some, Option.toList_some]
    -- of the last statement only the `break` itself leaves the switch
    conv_lhs => rw [parts]
    rw [List.flatMap_append, List.flatMap_singleton, breaksOut_eq last, if_pos isBreak]

/-- What a handler performs and answers with when it leaves the way a `break` did. -/
inductive Answers (unit : SourceUnit) (state : String) : List Node → String → Prop where
  | alone : Answers unit state [] state
  | behind {kept : List Node} {span : Span} (spans : spanOf kept = some span) (indent : Nat) :
      Answers unit state kept ("\x7b\n" ++ unit.slice span ++ "\n" ++
        String.ofList (List.replicate indent ' ') ++ "return " ++ state ++ ";\n\x7d")

theorem answers_bodyBeforeBreak (unit : SourceUnit) (state : String) (kept : List Node) :
    Answers unit state kept (bodyBeforeBreak unit state kept) := by
  cases kept with
  | nil => exact .alone
  | cons first rest =>
    obtain ⟨last, isLast⟩ := Option.ne_none_iff_exists'.1
      (mt List.getLast?_eq_none_iff.1 (List.cons_ne_nil first rest))
    rw [bodyBeforeBreak, isLast]
    exact .behind rfl _

theorem body_ofStatements (unit : SourceUnit) (signature : ReducerSignature) (label : String)
    (preceding : List String) (statements : List Node) :
    (ofStatements unit signature label preceding statements).body =
      if (lastBreak? statements).isSome then
        bodyBeforeBreak unit signature.state (statementsKept statements)
      else bodyOf unit (statementsKept statements) := by
  cases before : beforeBreak? statements with
  | none =>
    rw [lastBreak?_eq_none_iff.2 before, ofStatements, statementsKept, before]
    rfl
  | some rest =>
    have last : (lastBreak? statements).isSome = true := by
      rw [Option.isSome_iff_ne_none, ne_eq, lastBreak?_eq_none_iff, before]
      exact Option.some_ne_none rest
    rw [if_pos last, ofStatements, statementsKept, before]
    rfl

theorem usesState_ofStatements_of_lastBreak? (unit : SourceUnit) (signature : ReducerSignature)
    (label : String) (preceding : List String) {statements : List Node}
    (ends : lastBreak? statements ≠ none) :
    (ofStatements unit signature label preceding statements).usesState = true := by
  obtain ⟨rest, before⟩ := Option.ne_none_iff_exists'.1 (mt lastBreak?_eq_none_iff.2 ends)
  rw [ofStatements, before]

end SwitchClause

/-! ## Handlers -/

namespace ReducerReading

open SwitchClause

variable (reading : ReducerReading)

/-- What the parameter of the function in some place is called. -/
def parameterPattern? (place : Nat) : Option Node :=
  (((reading.declaration.node.child? .parameters).map
    SourceUnit.parameterNodes).getD [])[place]?.bind fun parameter => parameter.child? .pattern

/-- The handler of the clause leaves with the state that it is given, behind all it performs. -/
structure LeavesWithState (clause : HandledClause) (read : SwitchClause) : Prop where
  given : read.usesState = true
  /-- What is answered is no part of the state. -/
  whole : ∀ pattern ∈ reading.parameterPattern? 0, pattern.kind = .identifier
  /-- The statements declare nothing else under the name of the state. -/
  visible : reading.signature.state ∉ reading.unit.namesScoped (statementsKept clause.statements)
  answers :
    Answers reading.unit reading.signature.state (statementsKept clause.statements) read.body

/-- The handler of the clause leaves no switch that is gone, and it leaves with the state where the
clause left the switch. -/
structure BreaksAnswered (clause : HandledClause) (read : SwitchClause) : Prop where
  gone : ∀ statement ∈ statementsKept clause.statements, statement.breaksOut = []
  answered : (∃ statement ∈ clause.statements, statement.breaksOut ≠ []) →
    reading.LeavesWithState clause read

variable {reading} {clause : HandledClause}

theorem leavesWithState_iff (ends : lastBreak? clause.statements ≠ none) :
    reading.LeavesWithState clause (clause.reading reading.unit reading.signature) ↔
      (∀ pattern ∈ reading.parameterPattern? 0, pattern.kind = .identifier) ∧
        reading.signature.state ∉
          reading.unit.namesScoped (statementsKept clause.statements) := by
  constructor
  · rintro ⟨_, whole, visible, _⟩
    exact ⟨whole, visible⟩
  · rintro ⟨whole, visible⟩
    refine ⟨usesState_ofStatements_of_lastBreak? _ _ _ _ ends, whole, visible, ?_⟩
    rw [HandledClause.reading, body_ofStatements, if_pos (Option.isSome_iff_ne_none.2 ends)]
    exact answers_bodyBeforeBreak _ _ _

theorem breaksAnswered_iff :
    reading.BreaksAnswered clause (clause.reading reading.unit reading.signature) ↔
      clause.statements.flatMap Node.breaksOut = (lastBreak? clause.statements).toList ∧
        (lastBreak? clause.statements ≠ none →
          (∀ pattern ∈ reading.parameterPattern? 0, pattern.kind = .identifier) ∧
            reading.signature.state ∉
              reading.unit.namesScoped (statementsKept clause.statements)) := by
  have gone : (∀ statement ∈ statementsKept clause.statements, statement.breaksOut = []) ↔
      clause.statements.flatMap Node.breaksOut = (lastBreak? clause.statements).toList := by
    rw [flatMap_breaksOut, List.append_left_eq_self, List.flatMap_eq_nil_iff]
  -- once the handler keeps none, a `break` stood in the clause exactly where it stood at the end
  have stood (only : clause.statements.flatMap Node.breaksOut =
        (lastBreak? clause.statements).toList) :
      (∃ statement ∈ clause.statements, statement.breaksOut ≠ []) ↔
        lastBreak? clause.statements ≠ none := by
    have none : clause.statements.flatMap Node.breaksOut = [] ↔
        lastBreak? clause.statements = none := by
      rw [only, Option.toList_eq_nil_iff]
    rw [ne_eq, ← none, List.flatMap_eq_nil_iff, not_forall]
    exact exists_congr fun statement => (Classical.not_imp).symm
  constructor
  · rintro ⟨noneKept, answered⟩
    have only := gone.1 noneKept
    exact ⟨only, fun ends => (leavesWithState_iff ends).1 (answered ((stood only).2 ends))⟩
  · rintro ⟨only, answers⟩
    refine ⟨gone.2 only, fun broken => ?_⟩
    have ends := (stood only).1 broken
    exact (leavesWithState_iff ends).2 (answers ends)

end ReducerReading

/-- Only a `break` at the end of a clause or of its only block gives way to the answer. So the
handler of a clause is right about breaks exactly where there is no other one that leaves the
switch, and where the answer is the whole state under a name that the clause does not declare
anew. -/
theorem breaks_answered_iff {reading : ReducerReading} {clause : HandledClause}
    (member : clause ∈ HandledClause.ofSwitch reading.unit reading.switch) :
    ∃ read ∈ reading.clauses,
      read.labels = WrittenClause.waitingLabels clause.before ++ [clause.label] ∧
      read.body = (if (SwitchClause.lastBreak? clause.statements).isSome then
          SwitchClause.bodyBeforeBreak reading.unit reading.signature.state
            (SwitchClause.statementsKept clause.statements)
        else SwitchClause.bodyOf reading.unit (SwitchClause.statementsKept clause.statements)) ∧
      (reading.BreaksAnswered clause read ↔
        clause.statements.flatMap Node.breaksOut =
            (SwitchClause.lastBreak? clause.statements).toList ∧
          (SwitchClause.lastBreak? clause.statements ≠ none →
            (∀ pattern ∈ reading.parameterPattern? 0, pattern.kind = .identifier) ∧
              reading.signature.state ∉ reading.unit.namesScoped
                (SwitchClause.statementsKept clause.statements))) := by
  exact ⟨clause.reading reading.unit reading.signature, HandledClause.reading_mem_ofSwitch member _,
    SwitchClause.labels_ofStatements _ _ _ _ _, SwitchClause.body_ofStatements _ _ _ _ _,
    ReducerReading.breaksAnswered_iff⟩

/-- The first clause leaves the switch in the middle. -/
def breaksEarly : Project :=
  ofSources ⟨""⟩ {}
    [(⟨"a.ts"⟩, "function xReducer(s,a)\x7bswitch(a)\x7bcase A:if(s)\x7bbreak\x7dreturn 1\x7d\x7d")]

theorem exists_clause_breaksEarly :
    ∃ reading : ReducerReading, reading.IsOf {} ⟨"a.ts"⟩ breaksEarly ∧
      ∃ clause ∈ HandledClause.ofSwitch reading.unit reading.switch,
        SwitchClause.lastBreak? clause.statements = none ∧
        (clause.statements.flatMap Node.breaksOut).map reading.unit.textOf = ["break"] ∧
        (clause.reading reading.unit reading.signature).body =
          "\x7b\nif(s)\x7bbreak\x7dreturn 1\n\x7d" := by
  have found : ∃ unit ∈ breaksEarly.unit? ⟨"a.ts"⟩,
      ∃ declaration ∈ reducingFunction? ({} : Config).naming unit,
      ∃ switch ∈ switchOf? declaration.node, ∃ clause ∈ HandledClause.ofSwitch unit switch,
        (SwitchClause.lastBreak? clause.statements).isNone = true ∧
        (clause.statements.flatMap Node.breaksOut).map unit.textOf = ["break"] ∧
        (clause.reading unit (ReducerSignature.ofFunction unit declaration.node)).body =
          "\x7b\nif(s)\x7bbreak\x7dreturn 1\n\x7d" := by
    decide +kernel
  obtain ⟨unit, found, declaration, function, switch, first, clause, member, last, breaks, body⟩ :=
    found
  exact ⟨⟨unit, declaration, switch⟩, ⟨found, function, first⟩, clause, member,
    Option.isNone_iff_eq_none.1 last, breaks, body⟩

theorem breaks_answered_iff_breaksEarly :
    ∃ reading : ReducerReading, reading.IsOf {} ⟨"a.ts"⟩ breaksEarly ∧
      ∃ clause ∈ HandledClause.ofSwitch reading.unit reading.switch, ∃ read ∈ reading.clauses,
        (reading.BreaksAnswered clause read ↔
          clause.statements.flatMap Node.breaksOut =
              (SwitchClause.lastBreak? clause.statements).toList ∧
            (SwitchClause.lastBreak? clause.statements ≠ none →
              (∀ pattern ∈ reading.parameterPattern? 0, pattern.kind = .identifier) ∧
                reading.signature.state ∉ reading.unit.namesScoped
                  (SwitchClause.statementsKept clause.statements))) := by
  obtain ⟨reading, isOf, clause, member, _⟩ := exists_clause_breaksEarly
  obtain ⟨read, readMember, _, _, exactly⟩ := breaks_answered_iff member
  exact ⟨reading, isOf, clause, member, read, readMember, exactly⟩

/-- The handler keeps the `break`, which leaves nothing any more. -/
theorem not_breaksAnswered_breaksEarly :
    ∃ reading : ReducerReading, reading.IsOf {} ⟨"a.ts"⟩ breaksEarly ∧
      ∃ clause ∈ HandledClause.ofSwitch reading.unit reading.switch, ∃ read ∈ reading.clauses,
        read.body = "\x7b\nif(s)\x7bbreak\x7dreturn 1\n\x7d" ∧
          ¬ reading.BreaksAnswered clause read := by
  obtain ⟨reading, isOf, clause, member, last, breaks, body⟩ := exists_clause_breaksEarly
  refine ⟨reading, isOf, clause, member, clause.reading reading.unit reading.signature,
    HandledClause.reading_mem_ofSwitch member _, body, fun answered => ?_⟩
  obtain ⟨only, _⟩ := ReducerReading.breaksAnswered_iff.1 answered
  rw [only, last] at breaks
  cases breaks

end CreatorMigration
