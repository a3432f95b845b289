import CreatorMigration.Proofs.Migration.LabelGroups
import CreatorMigration.Proofs.Tree.LeftEdge

/-! # Returned expressions

A clause that only returns an expression is registered with an arrow function whose body is that
expression. Behind the arrow a brace opens a block, so an expression that starts with one has to
stand in parentheses.

* `SwitchClause.StandsFor` says what may be written for an expression.
* `concise_body_kept_iff` says for which expressions the migration writes such a body.
-/

namespace CreatorMigration

open Project Update

/-! ## Statements of a switch -/

theorem WrittenClause.exists_node {unit : SourceUnit} {switch : Node} {clause : WrittenClause}
    (member : clause ∈ ofSwitch unit switch) :
    ∃ body ∈ switch.children, ∃ node ∈ body.namedParts,
      ∀ statement ∈ clause.statements, statement ∈ node.namedParts := by
  obtain ⟨node, nodeMember, read⟩ := List.mem_filterMap.1 member
  cases found : switch.child? .body with
  | none => simp [found] at nodeMember
  | some body =>
    rw [found] at nodeMember
    refine ⟨body, List.mem_of_find?_eq_some found, node, nodeMember, fun statement inClause => ?_⟩
    rw [ofNode?] at read
    split at read
    · cases read
      exact inClause
    · obtain ⟨⟨label, statements⟩, parts, same⟩ := Option.map_eq_some_iff.1 read
      cases same
      rw [SwitchClause.caseParts?] at parts
      split at parts
      · obtain ⟨value, _, same⟩ := Option.map_eq_some_iff.1 parts
        cases same
        exact (List.mem_filter.1 inClause).1
      · cases parts

/-- The statements of a handled clause stand below a child of the switch. -/
theorem HandledClause.exists_child {unit : SourceUnit} {switch statement : Node}
    {clause : HandledClause} (member : clause ∈ ofSwitch unit switch)
    (inClause : statement ∈ clause.statements) :
    ∃ child ∈ switch.children, statement ∈ child.descendants := by
  obtain ⟨_, split⟩ := mem_ofSwitch_iff.1 member
  have written : clause.written ∈ WrittenClause.ofSwitch unit switch := by
    rw [split]
    exact List.mem_append_right _ List.mem_cons_self
  obtain ⟨body, bodyMember, node, nodeMember, statements⟩ := WrittenClause.exists_node written
  refine ⟨body, bodyMember, ?_⟩
  refine Node.mem_descendants_of_child (List.mem_filter.1 nodeMember).1 ?_
  exact Node.mem_descendants_of_child (List.mem_filter.1 (statements _ inClause)).1
    statement.self_mem_descendants

/-- What stands below a node of a unit stands in a statement of the unit. -/
theorem SourceUnit.exists_statement {unit : SourceUnit} {node child inner : Node}
    (inUnit : node ∈ unit.tree.descendants) (member : child ∈ node.children)
    (inside : inner ∈ child.descendants) :
    ∃ statement ∈ unit.tree.children, inner ∈ statement.descendants := by
  rw [Node.descendants_eq, List.mem_cons] at inUnit
  rcases inUnit with rfl | below
  · exact ⟨child, member, inside⟩
  · obtain ⟨statement, statementMember, nodeInside⟩ := List.mem_flatMap.1 below
    exact ⟨statement, statementMember,
      Node.descendants_trans nodeInside (Node.mem_descendants_of_child member inside)⟩

/-! ## Bodies -/

namespace SwitchClause

/-- The body is an expression, in parentheses wherever it would not be read as that without. -/
structure StandsFor (unit : SourceUnit) (expression : Node) (body : String) : Prop where
  denotes : body = unit.textOf expression ∨ body = "(" ++ unit.textOf expression ++ ")"
  parenthesized : Text.hasStart "\x7b" (unit.textOf expression) = true ∨
    expression.kind = .sequenceExpression → body = "(" ++ unit.textOf expression ++ ")"
  isNoBlock : Text.hasStart "\x7b" body = false

theorem hasStart_parenthesized (text : String) :
    Text.hasStart "\x7b" ("(" ++ text ++ ")") = false := by
  rw [Text.hasStart, String.toList_append, String.toList_append]
  rfl

/-- Only the kinds that are put into parentheses may start with a brace. -/
theorem standsFor_conciseBody_iff (unit : SourceUnit) (expression : Node) :
    StandsFor unit expression (conciseBody unit expression) ↔
      (Text.hasStart "\x7b" (unit.textOf expression) = true →
        expression.kind = .object ∨ expression.kind = .sequenceExpression) := by
  rw [conciseBody]
  split
  · next kinds =>
    exact iff_of_true ⟨.inr rfl, fun _ => rfl, hasStart_parenthesized _⟩ fun _ => kinds
  · next others =>
    constructor
    · rintro ⟨_, _, isNoBlock⟩ starts
      exact absurd starts (by simp [isNoBlock])
    · intro kinds
      -- neither reason for parentheses applies, so the text itself will do
      have noBrace : Text.hasStart "\x7b" (unit.textOf expression) = false :=
        Bool.eq_false_iff.2 fun starts => others (kinds starts)
      refine ⟨.inl rfl, ?_, noBrace⟩
      rintro (starts | sequence)
      · exact absurd (kinds starts) others
      · exact absurd (.inr sequence) others

theorem body_ofStatements_of_return {unit : SourceUnit} {signature : ReducerSignature}
    {label : String} {preceding : List String} {statement value : Node}
    (returns : statement.kind = .returnStatement)
    (found : statement.namedParts.head? = some value) :
    (ofStatements unit signature label preceding [statement]).body = conciseBody unit value := by
  obtain ⟨rest, parts⟩ := List.head?_eq_some_iff.1 found
  have noBreak : beforeBreak? [statement] = none := by
    simp [beforeBreak?, innerStatements, isUnlabeledBreak, returns]
  simp only [ofStatements, noBreak, bodyOf, returns, parts]

end SwitchClause

/-- A clause that only returns an expression is registered with one body, whatever its labels. That
body stands for the expression unless the expression starts with a brace without being an object. -/
theorem concise_body_kept_iff (creators : CreatorNames) {unit : SourceUnit}
    (signature : ReducerSignature) {switch : Node} (inUnit : switch ∈ unit.tree.descendants)
    {clause : HandledClause} (member : clause ∈ HandledClause.ofSwitch unit switch)
    {statement expression : Node} (alone : clause.statements = [statement])
    (returns : statement.kind = .returnStatement)
    (found : statement.namedParts.head? = some expression) :
    ∃ read ∈ SwitchClause.ofSwitch unit signature switch, ∃ body,
      read.labels = WrittenClause.waitingLabels clause.before ++ [clause.label] ∧
      registrationsOf creators signature read =
        read.nameGroups.map (fun names =>
          creators.on ++ "(" ++ Text.join ", " names ++ ", " ++
            (read.parameterUse.render signature.state signature.action ++ " => " ++ body) ++ ")") ∧
      (SwitchClause.StandsFor unit expression body ↔
        (Text.hasStart "\x7b" (unit.textOf expression.leftmost) = true →
          expression.kind = .object ∨ expression.kind = .sequenceExpression)) := by
  have inClause : statement ∈ clause.statements := alone ▸ List.mem_singleton_self statement
  obtain ⟨child, childMember, inside⟩ := HandledClause.exists_child member inClause
  -- only the root of a tree may start with blanks, and the expression stands below a child of it
  have inStatement : expression ∈ statement.descendants :=
    Node.mem_descendants_of_child (List.mem_filter.1 (List.mem_of_mem_head? found)).1
      expression.self_mem_descendants
  obtain ⟨top, topMember, inTop⟩ :=
    SourceUnit.exists_statement inUnit childMember (Node.descendants_trans inside inStatement)
  have starts := unit.hasStart_leftmost_iff '\x7b' topMember inTop
  have body : (clause.reading unit signature).body = SwitchClause.conciseBody unit expression := by
    rw [HandledClause.reading, alone, SwitchClause.body_ofStatements_of_return returns found]
  refine ⟨_, HandledClause.reading_mem_ofSwitch member signature, _,
    SwitchClause.labels_ofStatements _ _ _ _ _, rfl, ?_⟩
  rw [body, SwitchClause.standsFor_conciseBody_iff]
  exact imp_congr_left starts

/-- The returned expression starts with an object and is none itself. -/
def returnsAssertion : SourceUnit :=
  SourceUnit.ofText ⟨"a.ts"⟩ "switch(a)\x7bcase A:return\x7ba:1\x7das S\x7d"

theorem exists_clause_returnsAssertion :
    ∃ switch ∈ returnsAssertion.tree.descendants,
      ∃ clause ∈ HandledClause.ofSwitch returnsAssertion switch,
      ∃ statement expression, clause.statements = [statement] ∧
        statement.kind = .returnStatement ∧
        statement.namedParts.head? = some expression ∧
        SwitchClause.conciseBody returnsAssertion expression = "\x7ba:1\x7das S" := by
  have found : ∃ switch ∈ returnsAssertion.tree.descendants,
      ∃ clause ∈ HandledClause.ofSwitch returnsAssertion switch,
      clause.statements.length = 1 ∧
      ∃ statement ∈ clause.statements.head?, statement.kind = .returnStatement ∧
      ∃ expression ∈ statement.namedParts.head?,
        SwitchClause.conciseBody returnsAssertion expression = "\x7ba:1\x7das S" := by
    decide +kernel
  obtain ⟨switch, inUnit, clause, member, alone, statement, first, returns, expression, found,
    body⟩ := found
  obtain ⟨only, statements⟩ := List.length_eq_one_iff.1 alone
  rw [statements] at first
  obtain rfl : only = statement := by simpa using first
  exact ⟨switch, inUnit, clause, member, only, expression, statements, returns, found, body⟩

theorem concise_body_kept_iff_returnsAssertion :
    ∃ switch ∈ returnsAssertion.tree.descendants,
      ∃ clause ∈ HandledClause.ofSwitch returnsAssertion switch, ∃ statement expression,
        clause.statements = [statement] ∧ statement.kind = .returnStatement ∧
        statement.namedParts.head? = some expression ∧
        ∃ read ∈ SwitchClause.ofSwitch returnsAssertion ⟨"r", "s", "a", "0"⟩ switch, ∃ body,
          read.labels = WrittenClause.waitingLabels clause.before ++ [clause.label] ∧
          registrationsOf {} ⟨"r", "s", "a", "0"⟩ read = read.nameGroups.map (fun names =>
            "on(" ++ Text.join ", " names ++ ", " ++
              (read.parameterUse.render "s" "a" ++ " => " ++ body) ++ ")") ∧
          (SwitchClause.StandsFor returnsAssertion expression body ↔
            (Text.hasStart "\x7b" (returnsAssertion.textOf expression.leftmost) = true →
              expression.kind = .object ∨ expression.kind = .sequenceExpression)) := by
  obtain ⟨switch, inUnit, clause, member, statement, expression, alone, returns, found, _⟩ :=
    exists_clause_returnsAssertion
  exact ⟨switch, inUnit, clause, member, statement, expression, alone, returns, found,
    concise_body_kept_iff {} ⟨"r", "s", "a", "0"⟩ inUnit member alone returns found⟩

/-- Behind the arrow the assertion is read as a block. -/
theorem not_standsFor_returnsAssertion :
    ∃ switch ∈ returnsAssertion.tree.descendants,
      ∃ clause ∈ HandledClause.ofSwitch returnsAssertion switch, ∃ statement expression,
        clause.statements = [statement] ∧ statement.kind = .returnStatement ∧
        statement.namedParts.head? = some expression ∧
        ∃ read ∈ SwitchClause.ofSwitch returnsAssertion ⟨"r", "s", "a", "0"⟩ switch,
          read.body = "\x7ba:1\x7das S" ∧
          ¬ SwitchClause.StandsFor returnsAssertion expression read.body := by
  obtain ⟨switch, inUnit, clause, member, statement, expression, alone, returns, found, written⟩ :=
    exists_clause_returnsAssertion
  have body : (clause.reading returnsAssertion ⟨"r", "s", "a", "0"⟩).body = "\x7ba:1\x7das S" := by
    rw [HandledClause.reading, alone, SwitchClause.body_ofStatements_of_return returns found,
      written]
  refine ⟨switch, inUnit, clause, member, statement, expression, alone, returns, found,
    clause.reading returnsAssertion ⟨"r", "s", "a", "0"⟩,
    HandledClause.reading_mem_ofSwitch member _, body, ?_⟩
  rintro ⟨_, _, isNoBlock⟩
  rw [body] at isNoBlock
  cases isNoBlock

end CreatorMigration
