import CreatorMigration.Proofs.Tree.Covering.Types
import CreatorMigration.Tree.Grammar.Expression

/-! # Tokens of expressions

Expressions cover the tokens that they are read from. Operators are nested only when all operands
are read, so `covers_assemble` goes along with the stack of what waits for its right operand.
-/

namespace CreatorMigration.Grammar

open Shape (Covers)

variable {parse : Parse}

/-! ## Templates, arrays and objects -/

theorem reads_templatePart (nested : ReadsNested parse) : Reads Covers (templatePart parse) :=
  (reads_ofKind _ _ rfl).orElse <| (reads_ofKind _ _ rfl).orElse <|
    (reads_ofKind _ _ rfl).groupOfThree (nested _) (reads_ofKind _ _ rfl) rfl

theorem reads_template (nested : ReadsNested parse) : Reads Covers (template parse) := by
  refine (reads_ofKind _ _ rfl).bind fun _ => ?_
  refine ((reads_templatePart nested).manyUntil (reads_ofKind _ _ rfl)).bind fun _ => ?_
  exact reads_pure fun _ _ parts _ opening => covers_group (.cons opening parts) rfl

theorem reads_spreadElement (nested : ReadsNested parse) : Reads Covers (spreadElement parse) :=
  (reads_mark _).groupOfTwo (nested _) rfl

theorem reads_arrayLiteral (nested : ReadsNested parse) : Reads Covers (arrayLiteral parse) :=
  (reads_bracketed ((reads_spreadElement nested).orElse (nested _)).single _ _).bind fun _ =>
    reads_pure fun _ _ inside => covers_group inside rfl

theorem reads_methodDefinition (nested : ReadsNested parse) (words : List String) :
    Reads Covers (methodDefinition parse words) := by
  refine (reads_modifierOf _).many.bind fun _ => (reads_mark _).single.optionally.bind fun _ => ?_
  refine (reads_memberName nested).bind fun _ => (reads_mark _).single.optionally.bind fun _ => ?_
  refine (reads_signature nested).bind fun _ => (reads_body nested).bind fun _ => ?_
  exact reads_pure fun _ _ body _ head _ question _ name _ star _ modifiers =>
    covers_group ((((modifiers.append star).append (.cons (name.withRole _) question)).append
      head).append (.single body)) rfl

theorem reads_objectMember (nested : ReadsNested parse) : Reads Covers (objectMember parse) := by
  refine (looks_check _ _).then fun _ => (reads_spreadElement nested).ite ?_
  refine (looks_check _ _).then fun _ => (looks_check _ _).then fun _ =>
    (reads_anyWord _ rfl).ite (Reads.orElse ?_ ((reads_methodDefinition nested _).orElse ?_))
  · refine (reads_memberName nested).bind fun _ => (reads_mark _).bind fun _ => ?_
    refine (nested _).bind fun _ => ?_
    exact reads_pure fun _ _ value _ colon _ key =>
      covers_group (.cons (key.withRole _) (.cons colon (.single (value.withRole _)))) rfl
  · exact (reads_anyWord _ rfl).groupOfThree (reads_mark _) (nested _) rfl

theorem reads_objectLiteral (nested : ReadsNested parse) : Reads Covers (objectLiteral parse) :=
  (reads_bracketed (reads_objectMember nested).single _ _).bind fun _ =>
    reads_pure fun _ _ inside => covers_group inside rfl

/-! ## Functions -/

theorem reads_functionHead (nested : ReadsNested parse) {name : Parser (List Shape)}
    (named : Reads (Tiles Covers) name) :
    Reads (fun head => Tiles Covers head.2) (functionHead parse name) := by
  refine (reads_word _).single.optionally.bind fun _ => (looks_check _ _).then fun _ => ?_
  refine (reads_word _).guarded.bind fun _ => (reads_mark _).single.optionally.bind fun _ => ?_
  refine named.bind fun _ => (reads_signature nested).bind fun _ => ?_
  exact reads_pure fun _ _ head _ called _ star _ keyword _ async =>
    ((async.append (.cons keyword star)).append called).append head

/-- An identifier as the name of what is declared. -/
theorem reads_calledIdentifier :
    Reads (Tiles Covers) (do return [(← identifier).withRole .name]) :=
  reads_identifier.bind fun _ => reads_pure fun _ _ name => .single (name.withRole _)

theorem reads_functionExpression (nested : ReadsNested parse) :
    Reads Covers (functionExpression parse) := by
  refine (reads_functionHead nested reads_calledIdentifier.optionally).bind fun (generates, _) => ?_
  refine (reads_body nested).bind fun _ => ?_
  refine reads_pure fun _ _ body _ head => covers_group (head.append (.single body)) ?_
  cases generates <;> rfl

theorem reads_arrowBody (nested : ReadsNested parse) (beforeColon : Bool) :
    Reads Covers (arrowBody parse beforeColon) :=
  (looks_check _ _).then fun _ => (reads_body nested).ite <|
    (nested _).bind fun _ => reads_pure fun _ _ covered => covered.withRole _

theorem reads_arrowHead (nested : ReadsNested parse) (beforeColon : Bool) (depth : Nat) :
    Reads (Tiles Covers) (arrowHead parse beforeColon depth) := by
  refine (looks_check _ _).then fun _ => Reads.ite ?_ ?_
  · exact (looks_behindBrackets _).then fun _ =>
      (reads_parameters nested).single.ite (reads_signature nested).guarded
  · refine (looks_check _ _).then fun _ => (reads_signature nested).ite ?_
    refine reads_identifier.bind fun _ => (looks_check _ _).then fun _ => Reads.guarded ?_
    exact reads_pure fun _ _ name => .single (name.withRole _)

theorem looks_isAsyncArrow : Looks isAsyncArrow :=
  (looks_check _ _).bind fun _ => (looks_check _ _).bind fun _ => (looks_check _ _).bind fun _ =>
    looks_pure _

theorem reads_none : Reads (Tiles Covers) (pure [] : Parser (List Shape)) :=
  reads_pure fun _ => .nil

theorem reads_arrowFunction (nested : ReadsNested parse) (beforeColon : Bool) :
    Reads Covers (arrowFunction parse beforeColon) := by
  refine looks_isAsyncArrow.then fun _ => Reads.branch (reads_word _).single reads_none fun _ => ?_
  refine (reads_arrowHead nested _ _).bind fun _ => (reads_mark _).bind fun _ => ?_
  refine (reads_arrowBody nested _).bind fun _ => ?_
  exact reads_pure fun _ _ body _ arrow _ head _ async =>
    covers_group ((async.append head).append (.cons arrow (.single body))) rfl

theorem reads_typedArrowBeforeColon (nested : ReadsNested parse) :
    Reads Covers (typedArrowBeforeColon parse) :=
  (reads_arrowFunction nested _).bind fun _ => (looks_check _ _).then fun _ =>
    (reads_pure fun _ _ covered => covered).guarded

/-! ## Primary expressions -/

theorem reads_literalWord : Reads Covers literalWord := by
  refine looks_peek.then fun token? => ?_
  cases token? with
  | none => exact reads_failure
  | some token =>
    dsimp only
    split
    · next kind found =>
      have words : ∀ pair ∈ literalWords, pair.2.isOfToken = true := by decide
      split at found
      · obtain ⟨front, back, split, _⟩ := List.lookup_eq_some_iff.1 found
        exact reads_anyWord kind (words (token.text, kind) (by simp [split]))
      · cases found
    · exact reads_failure

theorem reads_importExpression : Reads Covers importExpression :=
  (looks_check _ _).then fun _ =>
    ((reads_word _).groupOfThree (reads_mark _) (reads_anyWord _ rfl) rfl).ite
      (reads_takeIf _ _ _ rfl)

theorem reads_parenthesized (nested : ReadsNested parse) : Reads Covers (parenthesized parse) := by
  refine (reads_mark _).bind fun _ => (nested _).bind fun _ => ?_
  refine (reads_optionalAscription nested).bind fun _ => (reads_mark _).bind fun _ => ?_
  exact reads_pure fun _ _ close _ ascription _ inner _ opening =>
    covers_group ((Tiles.cons opening (.cons inner ascription)).append (.single close)) rfl

variable {classes : Parser Shape}

theorem reads_primary (nested : ReadsNested parse) (readsClasses : Reads Covers classes) :
    Reads Covers (primary parse classes) := by
  refine (looks_check _ _).then fun _ => (reads_parenthesized nested).ite ?_
  refine (looks_check _ _).then fun _ => (reads_arrayLiteral nested).ite ?_
  refine (looks_check _ _).then fun _ => (reads_objectLiteral nested).ite ?_
  refine (looks_check _ _).then fun _ => (reads_template nested).ite ?_
  refine (looks_check _ _).then fun _ => (looks_check _ _).then fun _ => readsClasses.ite ?_
  refine (looks_check _ _).then fun _ => (looks_check _ _).then fun _ => ?_
  refine (looks_check _ _).then fun _ => (reads_functionExpression nested).ite ?_
  refine (looks_check _ _).then fun _ => reads_importExpression.ite ?_
  exact reads_literalWord.orElse <| reads_identifier.orElse <| (reads_ofKind _ _ rfl).orElse <|
    (reads_ofKind _ _ rfl).orElse <| (reads_ofKind _ _ rfl).orElse (reads_ofKind _ _ rfl)

/-! ## Accesses and calls -/

theorem reads_memberStep (target : Shape) :
    Reads (Behind (Covers target) Covers) (memberStep target) := by
  refine ((reads_mark _).orElse (reads_takeIf _ _ _ rfl)).bind fun _ => ?_
  refine reads_propertyName.bind fun _ => ?_
  exact reads_pure fun _ _ name _ dot _ target =>
    covers_group (.cons (target.withRole _) (.cons dot (.single (name.withRole _)))) rfl

theorem reads_subscriptStep (nested : ReadsNested parse) (target : Shape) :
    Reads (Behind (Covers target) Covers) (subscriptStep parse target) := by
  refine (reads_takeIf _ _ _ rfl).single.optionally.bind fun _ => (reads_mark _).bind fun _ => ?_
  refine (nested _).bind fun _ => (reads_mark _).bind fun _ => ?_
  exact reads_pure fun _ _ close _ index _ opening _ chain _ target =>
    covers_group ((Tiles.cons (target.withRole _) chain).append
      (.cons opening (.cons index (.single close)))) rfl

theorem reads_templateArguments (nested : ReadsNested parse) :
    Reads Covers (templateArguments parse) :=
  (reads_template nested).bind fun _ => reads_pure fun _ _ covered => covered.withRole _

theorem reads_callStep (nested : ReadsNested parse) (target : Shape) :
    Reads (Behind (Covers target) Covers) (callStep parse target) := by
  refine (reads_mark _).single.optionally.bind fun _ => ?_
  refine (reads_typeArguments nested).single.optionally.bind fun _ => ?_
  refine ((reads_callArguments nested).orElse (reads_templateArguments nested)).bind fun _ => ?_
  exact reads_pure fun _ _ list _ types _ chain _ target => covers_group
    (((Tiles.cons (target.withRole _) chain).append types).append (.single list)) rfl

theorem reads_nonNullStep (target : Shape) :
    Reads (Behind (Covers target) Covers) (nonNullStep target) := by
  refine (looks_check _ _).then fun _ => Reads.guarded ((reads_mark _).bind fun _ => ?_)
  exact reads_pure fun _ _ sign _ target => covers_group (.cons target (.single sign)) rfl

theorem reads_instantiationStep (nested : ReadsNested parse) (target : Shape) :
    Reads (Behind (Covers target) Covers) (instantiationStep parse target) := by
  refine (reads_typeArguments nested).bind fun _ => (looks_check _ _).then fun _ => ?_
  refine Reads.guarded (reads_pure fun _ _ types _ target => ?_)
  exact covers_group (.cons target (.single types)) rfl

/-- One of several steps, or none. -/
theorem reads_steps {target : Shape} {step : Parser Shape}
    (steps : Reads (Behind (Covers target) Covers) step) :
    Reads (Behind (Covers target) fun larger? => Covers (larger?.getD target))
      ((some <$> step) <|> pure none) :=
  Reads.orElse (steps.map fun _ _ _ larger => larger) (reads_pure fun _ _ target => target)

theorem reads_accessStep (nested : ReadsNested parse) (target : Shape) :
    Reads (Behind (Covers target) fun larger? => Covers (larger?.getD target))
      (accessStep parse target) :=
  reads_steps <| (reads_memberStep target).orElse <|
    (reads_subscriptStep nested target).orElse (reads_nonNullStep target)

theorem reads_callOrAccessStep (nested : ReadsNested parse) (target : Shape) :
    Reads (Behind (Covers target) fun larger? => Covers (larger?.getD target))
      (callOrAccessStep parse target) :=
  reads_steps <| (reads_callStep nested target).orElse <| (reads_memberStep target).orElse <|
    (reads_subscriptStep nested target).orElse <| (reads_nonNullStep target).orElse
      (reads_instantiationStep nested target)

theorem reads_newExpression (nested : ReadsNested parse) {simple : Parser Shape}
    (readsSimple : Reads Covers simple) : Reads Covers (newExpression parse simple) := by
  refine (reads_word _).bind fun _ => (looks_check _ _).then fun _ => Reads.ite ?_ ?_
  · refine (reads_mark _).bind fun _ => (reads_anyWord _ rfl).bind fun _ => ?_
    exact reads_pure fun _ _ name _ dot _ keyword =>
      covers_group (.cons keyword (.cons dot (.single name))) rfl
  · refine (looks_check _ _).then fun _ => Reads.branch (nested _) readsSimple fun start => ?_
    refine (reads_extend (reads_accessStep nested) start).bind fun _ => ?_
    refine (reads_typeArguments nested).single.optionally.bind fun _ => ?_
    refine (reads_callArguments nested).single.optionally.bind fun _ => ?_
    exact reads_pure fun _ _ list _ types _ constructed _ start _ keyword => covers_group
      ((Tiles.cons keyword (.cons ((constructed _ start).withRole _) types)).append list) rfl

theorem reads_callee (nested : ReadsNested parse) (readsClasses : Reads Covers classes) :
    Reads Covers (callee parse classes) := by
  have simple := reads_primary nested readsClasses
  exact (looks_check _ _).then fun _ => Reads.branch (reads_newExpression nested simple) simple
    fun start => reads_extend (reads_callOrAccessStep nested) start

/-! ## Operators -/

/-- The signs of an operator cover the tokens, and the operator binds more than nothing. -/
structure CoversOperator (operator : Operator) (tokens rest : List Token) : Prop where
  signs : Tiles Covers operator.signs tokens rest
  binds : 0 < operator.level
  plain : operator.kind.isPlain = true

theorem CoversOperator.apply {operator : Operator} {left right : Shape}
    {tokens middle last rest : List Token} (covers : CoversOperator operator middle last)
    (inFront : Covers left tokens middle) (behind : Covers right last rest) :
    Covers (operator.apply left right) tokens rest :=
  covers_group ((Tiles.cons inFront covers.signs).append (.single behind)) covers.plain

/-- What waits for a right operand, the innermost first, covers the tokens in front of it. -/
inductive CoversStack : List (Shape × Operator) → List Token → List Token → Prop where
  | nil {tokens : List Token} : CoversStack [] tokens tokens
  | cons {left : Shape} {operator : Operator} {below : List (Shape × Operator)}
      {tokens first second rest : List Token} (others : CoversStack below tokens first)
      (own : Covers left first second) (signs : CoversOperator operator second rest) :
      CoversStack ((left, operator) :: below) tokens rest

theorem covers_settle {stack : List (Shape × Operator)} {right : Shape} (level : Nat)
    {tokens middle rest : List Token} (waiting : CoversStack stack tokens middle)
    (own : Covers right middle rest) :
    ∃ last, CoversStack (settle level stack right).1 tokens last ∧
      Covers (settle level stack right).2 last rest := by
  induction waiting generalizing right rest with
  | nil => exact ⟨_, .nil, own⟩
  | cons others left signs inductionHypothesis =>
    rw [settle]
    split
    · exact inductionHypothesis (signs.apply left own)
    · exact ⟨_, .cons others left signs, own⟩

/-- In the end nothing waits any more. -/
theorem covers_settle_zero {stack : List (Shape × Operator)} {right : Shape}
    {tokens middle rest : List Token} (waiting : CoversStack stack tokens middle)
    (own : Covers right middle rest) : Covers (settle 0 stack right).2 tokens rest := by
  induction waiting generalizing right rest with
  | nil => exact own
  | cons others left signs inductionHypothesis =>
    rw [settle, if_pos (.inl signs.binds)]
    exact inductionHypothesis (signs.apply left own)

/-- An operator and the operand behind it. -/
def CoversOperation (operation : Operator × Shape) (tokens rest : List Token) : Prop :=
  ∃ middle, CoversOperator operation.1 tokens middle ∧ Covers operation.2 middle rest

theorem covers_assemble {stack : List (Shape × Operator)} {current : Shape}
    {operations : List (Operator × Shape)} {tokens first second rest : List Token}
    (waiting : CoversStack stack tokens first) (own : Covers current first second)
    (behind : Tiles CoversOperation operations second rest) :
    Covers (assemble stack current operations) tokens rest := by
  induction behind generalizing stack current first with
  | nil => exact covers_settle_zero waiting own
  | @cons operation others _ _ _ inFront _ inductionHypothesis =>
    obtain ⟨operator, operand⟩ := operation
    obtain ⟨last, signs, covered⟩ := inFront
    obtain ⟨middle, below, left⟩ := covers_settle operator.level waiting own
    exact inductionHypothesis (.cons below left signs) covered

theorem reads_takeMarks (count : Nat) : Reads (Tiles Covers) (takeMarks count) := by
  induction count with
  | zero => exact reads_none
  | succ count inductionHypothesis =>
    refine (reads_takeIf _ _ _ rfl).bind fun _ => inductionHypothesis.bind fun _ => ?_
    exact reads_pure fun _ _ others _ first => .cons first others

theorem level_of_greaterSigns {tokens : List Token} {count level : Nat}
    (signs : greaterSigns tokens = some (count, level)) : 0 < level := by
  unfold greaterSigns at signs
  grind

theorem reads_greaterOperator : Reads CoversOperator greaterOperator := by
  intro tokens operator rest read
  unfold greaterOperator at read
  split at read
  · split at read
    · split at read
      · next count level signs =>
        obtain ⟨⟨marks, left⟩, taken, same⟩ := Option.map_eq_some_iff.1 read
        cases same
        exact ⟨reads_takeMarks _ _ _ _ taken, level_of_greaterSigns signs,
          rfl⟩
      · cases read
    · cases read
  · cases read

theorem level_of_operatorLevels {text : String} {level : Nat}
    (found : operatorLevels.lookup text = some level) : 0 < level := by
  have positive : ∀ entry ∈ operatorLevels, 0 < entry.2 := by decide
  obtain ⟨_, _, split, _⟩ := List.lookup_eq_some_iff.1 found
  exact positive (text, level) (by simp [split])

theorem reads_binaryOperator : Reads CoversOperator binaryOperator := by
  refine looks_peek.then fun token? => ?_
  cases token? with
  | none => exact reads_failure
  | some token =>
    refine Reads.ite ?_ ?_
    · split
      · next level found =>
        refine (reads_mark _).bind fun _ => reads_pure fun _ _ sign => ?_
        exact ⟨.single sign, level_of_operatorLevels found, rfl⟩
      · exact reads_greaterOperator
    · refine (reads_oneOfWords _).bind fun _ => reads_pure fun _ _ sign => ?_
      exact ⟨.single sign, Nat.succ_pos _, rfl⟩

theorem reads_operation (nested : ReadsNested parse) : Reads CoversOperation (operation parse) := by
  have ascribed {kind : Kind} (plain : kind.isPlain = true) :
      Reads CoversOperation (do
        let keyword ← oneOfWords ["as", "satisfies"]
        let target ← if ← atWord "const" then word "const" else parse .type
        return (⟨8, false, kind, [keyword]⟩, target)) := by
    refine (reads_oneOfWords _).bind fun _ => (looks_check _ _).then fun _ => ?_
    refine Reads.branch (reads_word _) (nested _) fun _ => ?_
    exact reads_pure fun _ _ target _ keyword =>
      ⟨_, ⟨.single keyword, Nat.succ_pos _, plain⟩, target⟩
  refine (looks_check _ _).then fun _ => (looks_check _ _).then fun _ => ?_
  refine (looks_check _ _).then fun _ => Reads.ite ?_ ?_
  · exact (looks_check _ _).then fun _ => (ascribed rfl).ite (ascribed rfl)
  · refine reads_binaryOperator.bind fun _ => (nested _).bind fun _ => ?_
    exact reads_pure fun _ _ operand _ operator => ⟨_, operator, operand⟩

theorem reads_operand (nested : ReadsNested parse) (readsClasses : Reads Covers classes) :
    Reads Covers (operand parse classes) := by
  have updated : Reads Covers (do
      let target ← callee parse classes
      if ((← atMark "++") || (← atMark "--")) && !(← onNewLine) then
        return group .updateExpression [target, ← mark "++" <|> mark "--"]
      else return target) := by
    refine (reads_callee nested readsClasses).bind fun _ => (looks_check _ _).then fun _ => ?_
    refine (looks_check _ _).then fun _ => (looks_check _ _).then fun _ => Reads.ite ?_ ?_
    · refine ((reads_mark _).orElse (reads_mark _)).bind fun _ => ?_
      exact reads_pure fun _ _ sign _ target => covers_group (.cons target (.single sign)) rfl
    · exact reads_pure fun _ _ target => target
  refine looks_peek.then fun token? => ?_
  cases token? with
  | none => exact reads_failure
  | some token =>
    refine ((reads_mark _).groupOfTwo (nested _) rfl).ite ?_
    refine ((reads_word _).groupOfTwo (nested _) rfl).ite ?_
    refine ((reads_mark _).groupOfTwo (nested _) rfl).ite ?_
    refine ((reads_word _).groupOfTwo (nested _) rfl).ite ?_
    exact ((reads_typeArguments nested).groupOfTwo (nested _) rfl).ite updated

theorem reads_operationsOn (nested : ReadsNested parse) (first : Shape) :
    Reads (Behind (Covers first) Covers) (operationsOn parse first) :=
  (reads_operation nested).many.bind fun _ =>
    reads_pure fun _ _ operations _ first => covers_assemble .nil first operations

/-! ## Whole expressions -/

theorem reads_shiftAssignment : Reads (Tiles Covers) shiftAssignment := by
  refine (reads_mark _).many.bind fun _ => Reads.guarded ((reads_mark _).bind fun _ => ?_)
  exact reads_pure fun _ _ sign _ signs => signs.append (.single sign)

/-- The signs of an assignment, with the kind of the assignment. -/
def CoversSigns (signs : Kind × List Shape) (tokens rest : List Token) : Prop :=
  signs.1.isPlain = true ∧ Tiles Covers signs.2 tokens rest

theorem reads_assignmentSigns : Reads CoversSigns assignmentSigns := by
  refine Reads.orElse ?_ (Reads.orElse ?_ ?_)
  · exact (reads_mark _).bind fun _ => reads_pure fun _ _ sign => ⟨rfl, .single sign⟩
  · exact (reads_takeIf _ _ _ rfl).bind fun _ => reads_pure fun _ _ sign => ⟨rfl, .single sign⟩
  · exact reads_shiftAssignment.bind fun _ => reads_pure fun _ _ signs => ⟨rfl, signs⟩

theorem reads_ternary (nested : ReadsNested parse) (beforeColon : Bool) (condition : Shape) :
    Reads (Behind (Covers condition) Covers) (ternary parse beforeColon condition) := by
  refine (reads_mark _).bind fun _ => (nested _).bind fun _ => (reads_mark _).bind fun _ => ?_
  refine (nested _).bind fun _ => ?_
  exact reads_pure fun _ _ alternative _ colon _ consequence _ question _ condition => covers_group
    (.cons condition (.cons question (.cons consequence (.cons colon (.single alternative))))) rfl

theorem reads_yieldExpression (nested : ReadsNested parse) :
    Reads Covers (yieldExpression parse) := by
  refine (reads_word _).bind fun _ => (reads_mark _).single.optionally.bind fun _ => ?_
  refine (looks_check _ _).then fun _ => (looks_check _ _).then fun _ => Reads.ite ?_ ?_
  · exact reads_pure fun _ _ star _ keyword => covers_group (.cons keyword star) rfl
  · refine (nested _).bind fun _ => ?_
    exact reads_pure fun _ _ value _ star _ keyword =>
      covers_group ((Tiles.cons keyword star).append (.single value)) rfl

theorem reads_destructuring (nested : ReadsNested parse) (beforeColon : Bool) :
    Reads Covers (destructuring parse beforeColon) := by
  refine (looks_check _ _).then fun _ => (looks_check _ _).then fun _ => Reads.guarded ?_
  refine (looks_behindBrackets _).then fun _ => Reads.guarded ?_
  exact (reads_pattern nested).groupOfThree (reads_mark _) (nested _) rfl

theorem reads_expressionFrom (nested : ReadsNested parse) (beforeColon : Bool) (first : Shape) :
    Reads (Behind (Covers first) Covers) (expressionFrom parse beforeColon first) := by
  have assigned (left : Shape) : Reads (Behind (Covers left) Covers)
      ((do
        let signs ← assignmentSigns
        return group signs.1 (left :: signs.2 ++ [← parse (.expression beforeColon)])) <|>
          pure left) := by
    refine Reads.orElse ?_ (reads_pure fun _ _ left => left)
    refine reads_assignmentSigns.bind fun _ => (nested _).bind fun _ => ?_
    exact reads_pure fun _ _ value _ signs _ left =>
      covers_group ((Tiles.cons left signs.2).append (.single value)) signs.1
  refine (reads_operationsOn nested first).bind fun left => ?_
  intro tokens answer rest read middle operated start covered
  have others : Reads (Behind (Covers left) Covers) (do
      if ← atMark "?" then ternary parse beforeColon left
      else
        (do
          let signs ← assignmentSigns
          return group signs.1 (left :: signs.2 ++ [← parse (.expression beforeColon)])) <|>
            pure left) :=
    (looks_check _ _).then fun _ => (reads_ternary nested _ left).ite (assigned left)
  exact others _ _ _ read _ (operated _ covered)

theorem reads_arrowExpression (nested : ReadsNested parse) (beforeColon : Bool) :
    Reads Covers (arrowExpression parse beforeColon) := by
  refine (Reads.orElse (Reads.ite (reads_typedArrowBeforeColon nested) reads_failure)
    (reads_arrowFunction nested _)).bind fun arrow => ?_
  refine (reads_extend (reads_callOrAccessStep nested) arrow).bind fun first => ?_
  exact fun _ _ _ read _ extended _ arrow =>
    reads_expressionFrom nested _ first _ _ _ read _ (extended _ arrow)

theorem reads_expression (nested : ReadsNested parse) (beforeColon : Bool) :
    Reads Covers (expression parse beforeColon) := by
  refine (looks_check _ _).then fun _ => (reads_yieldExpression nested).ite ?_
  refine (reads_arrowExpression nested _).orElse ((reads_destructuring nested _).orElse ?_)
  exact (nested _).bind fun first => reads_expressionFrom nested _ first

theorem reads_sequence (nested : ReadsNested parse) : Reads Covers (sequence parse) := by
  refine (reads_commaSeparated (nested _)).bind fun parts => ?_
  split
  · refine reads_pure fun _ _ covered => ?_
    cases covered with
    | cons own none =>
      cases none
      exact own
  · exact reads_pure fun _ _ covered => covers_group covered rfl

end CreatorMigration.Grammar
