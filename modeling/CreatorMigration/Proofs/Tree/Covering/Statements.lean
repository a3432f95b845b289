import CreatorMigration.Proofs.Tree.Covering.Expressions
import CreatorMigration.Tree.Parse

/-! # Tokens of statements

Classes, declarations, imports and exports cover the tokens that they are read from.
`Grammar.reads_unitParts` puts all parsers together: so do the statements of a unit with its end.
-/

namespace CreatorMigration.Grammar

open Shape (Covers)

variable {parse : Parse}

/-! ## Classes -/

theorem reads_fieldEnd : Reads (Tiles Covers) fieldEnd :=
  (reads_mark _).single.orElse reads_semicolon

theorem reads_method (nested : ReadsNested parse) (isAbstract : Bool) (front : List Shape) :
    Reads (Behind (Tiles Covers front) (Tiles Covers)) (method parse isAbstract front) := by
  refine (reads_signature nested).bind fun _ => (looks_check _ _).then fun _ => Reads.ite ?_ ?_
  · refine (reads_body nested).bind fun _ => ?_
    exact reads_pure fun _ _ body _ head _ front =>
      .single (covers_group ((front.append head).append (.single body)) rfl)
  · refine reads_fieldEnd.bind fun _ => ?_
    refine reads_pure fun _ _ ending _ head _ front =>
      .cons (covers_group (front.append head) ?_) ending
    cases isAbstract <;> rfl

theorem reads_field (nested : ReadsNested parse) (decorators front : List Shape) :
    Reads (Behind (Tiles Covers (decorators ++ front)) (Tiles Covers))
      (field parse decorators front) := by
  refine (reads_optionalAscription nested).bind fun _ => ?_
  refine (reads_initializer nested).optionally.bind fun _ => reads_fieldEnd.bind fun _ => ?_
  exact reads_pure fun _ _ ending _ value _ type _ inFront =>
    .cons (covers_group ((inFront.append type).append value) rfl) ending

theorem reads_methodOrField (nested : ReadsNested parse) :
    Reads (Tiles Covers) (methodOrField parse) := by
  refine (reads_decorator nested).many.bind fun _ => (looks_check _ _).then fun _ => ?_
  refine (looks_check _ _).then fun _ => (reads_modifierOf _).many.bind fun _ => ?_
  refine (reads_mark _).single.optionally.bind fun _ => (reads_memberName nested).bind fun _ => ?_
  refine ((reads_mark _).orElse (reads_mark _)).single.optionally.bind fun _ => ?_
  refine (looks_check _ _).then fun _ => (looks_check _ _).then fun _ => Reads.ite ?_ ?_
  · intro tokens answer rest read _ suffix _ name _ star _ modifiers _ decorators
    obtain ⟨⟨parts, left⟩, readMethod, same⟩ := Option.bind_eq_some_iff.1 read
    cases same
    exact decorators.append (reads_method nested _ _ _ _ _ readMethod _
      ((modifiers.append star).append (.cons (name.withRole _) suffix)))
  · exact fun _ _ _ read _ suffix _ name _ star _ modifiers _ decorators =>
      reads_field nested _ _ _ _ _ read _ (decorators.append
        ((modifiers.append star).append (.cons (name.withRole _) suffix)))

theorem reads_staticBlock (nested : ReadsNested parse) :
    Reads (Tiles Covers) (staticBlock parse) := by
  refine (looks_check _ _).then fun _ => Reads.guarded ?_
  refine (reads_word _).bind fun _ => (reads_body nested).bind fun _ => ?_
  exact reads_pure fun _ _ body _ keyword =>
    .single (covers_group (.cons keyword (.single body)) rfl)

theorem reads_classMember (nested : ReadsNested parse) :
    Reads (Tiles Covers) (classMember parse) := by
  refine (reads_mark _).single.orElse ((reads_staticBlock nested).orElse
    (Reads.orElse ?_ (reads_methodOrField nested)))
  refine (reads_indexSignature nested).bind fun _ => reads_fieldEnd.bind fun _ => ?_
  exact reads_pure fun _ _ ending _ index => .cons index ending

theorem reads_classBody (nested : ReadsNested parse) : Reads Covers (classBody parse) := by
  refine (reads_mark _).bind fun _ => ?_
  refine ((reads_classMember nested).manyUntil (reads_mark _).single).bind fun _ => ?_
  exact reads_pure fun _ _ members _ opening =>
    (covers_group (.cons opening members.flatten) rfl).withRole _

theorem reads_extendsClause (nested : ReadsNested parse) :
    Reads (Tiles Covers) (extendsClause parse) := by
  refine (reads_word _).bind fun _ => (nested _).bind fun _ => ?_
  refine (reads_typeArguments nested).single.optionally.bind fun _ => ?_
  exact reads_pure fun _ _ types _ value _ keyword =>
    .single (covers_group (.cons keyword (.cons (value.withRole _) types)) rfl)

/-- A keyword with types behind it. -/
theorem reads_typesBehind (nested : ReadsNested parse) (text : String) {kind : Kind}
    (plain : kind.isPlain = true) :
    Reads (Tiles Covers) (do
      let keyword ← word text
      return [group kind (keyword :: (← commaSeparated (parse .type)))]) :=
  (reads_word _).bind fun _ => (reads_commaSeparated (nested _)).bind fun _ =>
    reads_pure fun _ _ types _ keyword => .single (covers_group (.cons keyword types) plain)

theorem reads_classHeritage (nested : ReadsNested parse) :
    Reads (Tiles Covers) (classHeritage parse) := by
  refine (reads_extendsClause nested).optionally.bind fun extended => ?_
  refine (reads_typesBehind nested _ rfl).optionally.bind fun implemented => ?_
  refine reads_pure fun _ _ implemented _ extended => ?_
  split
  · next none =>
    rw [Bool.and_eq_true, List.isEmpty_iff, List.isEmpty_iff] at none
    obtain ⟨rfl, rfl⟩ := none
    exact extended.append implemented
  · exact .single (covers_group (extended.append implemented) rfl)

theorem reads_classFrom (nested : ReadsNested parse) {name : Parser (List Shape)}
    (named : Reads (Tiles Covers) name) : Reads (Tiles Covers) (classFrom parse name) := by
  refine (reads_word _).bind fun _ => named.bind fun _ => ?_
  refine (reads_typeParameters nested).single.optionally.bind fun _ => ?_
  refine (reads_classHeritage nested).bind fun _ => (reads_classBody nested).bind fun _ => ?_
  exact reads_pure fun _ _ body _ heritage _ types _ called _ keyword =>
    (((Tiles.cons keyword called).append types).append heritage).append (.single body)

/-- The name of a type as the name of what is declared. -/
theorem reads_calledType : Reads Covers (do return (← typeName).withRole .name) :=
  reads_typeName.bind fun _ => reads_pure fun _ _ name => name.withRole _

theorem reads_className : Reads Covers className :=
  (looks_check _ _).then fun _ => (looks_check _ _).then fun _ => reads_calledType.guarded

theorem reads_classExpression (nested : ReadsNested parse) :
    Reads Covers (classExpression parse) := by
  refine (reads_decorator nested).many.bind fun _ => ?_
  refine (reads_classFrom nested reads_className.single.optionally).bind fun _ => ?_
  exact reads_pure fun _ _ parts _ decorators => covers_group (decorators.append parts) rfl

theorem reads_classDeclaration (nested : ReadsNested parse) (decorators : List Shape) :
    Reads (Behind (Tiles Covers decorators) Covers) (classDeclaration parse decorators) := by
  have parts := reads_classFrom nested reads_className.single
  refine (looks_check _ _).then fun _ => Reads.ite ?_ ?_
  · refine (reads_word _).bind fun _ => parts.bind fun _ => ?_
    exact reads_pure fun _ _ parts _ keyword _ decorators =>
      covers_group (decorators.append (.cons keyword parts)) rfl
  · refine parts.bind fun _ => reads_trailingSemicolon.bind fun _ => ?_
    exact reads_pure fun _ _ ending _ parts _ decorators =>
      covers_group ((decorators.append parts).append ending) rfl

/-- A class behind its decorators. -/
theorem reads_decoratedClass (nested : ReadsNested parse) :
    Reads Covers (do classDeclaration parse (← many (decorator parse))) :=
  (reads_decorator nested).many.bind fun decorators => reads_classDeclaration nested decorators

/-! ## Variables -/

theorem reads_declarator (nested : ReadsNested parse) : Reads Covers (declarator parse) := by
  refine (reads_bindingPattern nested).bind fun _ => ?_
  refine (reads_mark _).single.optionally.bind fun _ => ?_
  refine (reads_optionalAscription nested).bind fun _ => ?_
  refine (reads_initializer nested).optionally.bind fun _ => ?_
  exact reads_pure fun _ _ value _ type _ definite _ name =>
    covers_group (((Tiles.cons (name.withRole _) definite).append type).append value) rfl

theorem reads_variableStatement (nested : ReadsNested parse) :
    Reads Covers (variableStatement parse) := by
  refine (looks_check _ _).then fun isVar => (looks_check _ _).then fun _ => ?_
  refine (reads_oneOfWords _).guarded.bind fun _ => ?_
  refine (reads_commaSeparated (reads_declarator nested)).bind fun _ => ?_
  refine reads_semicolon.bind fun _ => ?_
  refine reads_pure fun _ _ ending _ declarators _ keyword =>
    covers_group ((Tiles.cons keyword declarators).append ending) ?_
  cases isVar <;> rfl

/-! ## Functions, enums, interfaces and aliases -/

theorem reads_functionDeclaration (nested : ReadsNested parse) :
    Reads Covers (functionDeclaration parse) := by
  refine (reads_functionHead nested reads_calledIdentifier).bind fun (generates, _) => ?_
  refine (looks_check _ _).then fun _ => Reads.ite ?_ ?_
  · refine (reads_body nested).bind fun _ => reads_trailingSemicolon.bind fun _ => ?_
    refine reads_pure fun _ _ ending _ body _ head =>
      covers_group (head.append (.cons body ending)) ?_
    cases generates <;> rfl
  · refine reads_semicolon.bind fun _ => ?_
    exact reads_pure fun _ _ ending _ head => covers_group (head.append ending) rfl

theorem reads_enumMember (nested : ReadsNested parse) : Reads Covers (enumMember parse) := by
  refine (reads_memberName nested).bind fun _ => (looks_check _ _).then fun _ => Reads.ite ?_ ?_
  · refine (reads_initializer nested).bind fun _ => ?_
    exact reads_pure fun _ _ value _ name => covers_group (.cons (name.withRole _) value) rfl
  · exact reads_pure fun _ _ name => name.withRole _

theorem reads_enumDeclaration (nested : ReadsNested parse) :
    Reads Covers (enumDeclaration parse) := by
  refine (reads_word _).single.optionally.bind fun _ => (reads_word _).bind fun _ => ?_
  refine reads_identifier.bind fun _ => ?_
  refine (reads_bracketed (reads_enumMember nested).single _ _).bind fun _ => ?_
  exact reads_pure fun _ _ members _ name _ keyword _ constant =>
    covers_group (constant.append (.cons keyword (.cons (name.withRole _)
      (.single ((covers_group members rfl).withRole _))))) rfl

theorem reads_interfaceDeclaration (nested : ReadsNested parse) :
    Reads Covers (interfaceDeclaration parse) := by
  refine (looks_check _ _).then fun _ => (reads_word _).guarded.bind fun _ => ?_
  refine reads_typeName.bind fun _ => ?_
  refine (reads_typeParameters nested).single.optionally.bind fun _ => ?_
  refine (reads_typesBehind nested _ rfl).optionally.bind fun _ => ?_
  refine (reads_objectTypeAs nested rfl).bind fun _ => ?_
  exact reads_pure fun _ _ members _ heritage _ types _ name _ keyword =>
    covers_group (((Tiles.cons keyword (.cons (name.withRole _) types)).append heritage).append
      (.single (members.withRole _))) rfl

theorem reads_typeAlias (nested : ReadsNested parse) : Reads Covers (typeAlias parse) := by
  refine (looks_check _ _).then fun _ => (reads_word _).guarded.bind fun _ => ?_
  refine reads_typeName.bind fun _ => ?_
  refine (reads_typeParameters nested).single.optionally.bind fun _ => ?_
  refine (reads_mark _).bind fun _ => (nested _).bind fun _ => reads_semicolon.bind fun _ => ?_
  exact reads_pure fun _ _ ending _ value _ sign _ types _ name _ keyword =>
    covers_group ((Tiles.cons keyword (.cons (name.withRole _) types)).append
      (.cons sign (.cons (value.withRole _) ending))) rfl

/-! ## Modules and ambient declarations -/

theorem reads_dottedModuleName : Reads Covers dottedModuleName := by
  refine ((reads_ofKind _ _ rfl).orElse reads_identifier).bind fun _ => ?_
  refine (reads_both (reads_mark _) (reads_anyWord _ rfl)).many.bind fun _ => ?_
  exact reads_pure fun _ _ dotted _ first => covers_accesses first dotted rfl

theorem reads_moduleDeclaration (nested : ReadsNested parse) :
    Reads Covers (moduleDeclaration parse) := by
  refine (looks_check _ _).then fun isNamespace => (looks_check _ _).then fun _ => ?_
  refine (reads_oneOfWords _).guarded.bind fun _ => reads_dottedModuleName.bind fun _ => ?_
  have plain : (if isNamespace = true then Kind.internalModule
      else Kind.externalModule).isPlain = true := by
    cases isNamespace <;> rfl
  refine (looks_check _ _).then fun _ => Reads.ite ?_ ?_
  · refine (reads_body nested).bind fun _ => ?_
    exact reads_pure fun _ _ body _ name _ keyword =>
      covers_group (.cons keyword (.cons (name.withRole _) (.single body))) plain
  · refine reads_semicolon.bind fun _ => ?_
    exact reads_pure fun _ _ ending _ name _ keyword =>
      covers_group (.cons keyword (.cons (name.withRole _) ending)) plain

theorem reads_ambient (nested : ReadsNested parse) : Reads Covers (declaration.ambient parse) := by
  refine (looks_check _ _).then fun _ => (reads_word _).guarded.bind fun _ => ?_
  refine (looks_check _ _).then fun _ => Reads.guarded ?_
  refine (looks_check _ _).then fun _ => (looks_check _ _).then fun _ => Reads.ite ?_ ?_
  · refine (reads_word _).bind fun _ => (reads_block nested).bind fun _ => ?_
    exact reads_pure fun _ _ block _ name _ keyword =>
      covers_group (.cons keyword (.cons name (.single block))) rfl
  · refine (nested _).bind fun _ => ?_
    exact reads_pure fun _ _ inner _ keyword =>
      covers_group (.cons keyword (.single (inner.withRole _))) rfl

theorem reads_declaration (nested : ReadsNested parse) : Reads Covers (declaration parse) :=
  (reads_enumDeclaration nested).orElse <| (reads_variableStatement nested).orElse <|
    (reads_functionDeclaration nested).orElse <| (reads_decoratedClass nested).orElse <|
      (reads_interfaceDeclaration nested).orElse <| (reads_typeAlias nested).orElse <|
        (reads_moduleDeclaration nested).orElse (reads_ambient nested)

/-! ## Control -/

theorem reads_condition (nested : ReadsNested parse) : Reads Covers (condition parse) :=
  (reads_mark _).groupOfThree (nested _) (reads_mark _) rfl

/-- A group of two as the only part of something optional. -/
theorem reads_loneGroup {kind : Kind} {first second : Parser Shape}
    (readsFirst : Reads Covers first) (readsSecond : Reads Covers second)
    (plain : kind.isPlain = true) :
    Reads (Tiles Covers) (do return [group kind [← first, ← second]]) :=
  readsFirst.bind fun _ => readsSecond.bind fun _ => reads_pure fun _ _ behind _ inFront =>
    .single (covers_group (.cons inFront (.single behind)) plain)

theorem reads_ifStatement (nested : ReadsNested parse) : Reads Covers (ifStatement parse) := by
  refine (reads_word _).bind fun _ => (reads_condition nested).bind fun _ => ?_
  refine (nested _).bind fun _ => ?_
  refine (reads_loneGroup (reads_word _) (nested _) rfl).optionally.bind fun _ => ?_
  exact reads_pure fun _ _ alternative _ consequence _ test _ keyword =>
    covers_group (.cons keyword (.cons test (.cons consequence alternative))) rfl

theorem reads_expressionStatement (nested : ReadsNested parse) :
    Reads Covers (expressionStatement parse) :=
  (nested _).bind fun _ => reads_semicolon.bind fun _ => reads_pure fun _ _ ending _ inner =>
    covers_group (.cons inner ending) rfl

theorem reads_emptyStatement : Reads Covers emptyStatement :=
  (reads_mark _).bind fun _ => reads_pure fun _ _ sign => covers_group (.single sign) rfl

theorem reads_forInStatement (nested : ReadsNested parse) :
    Reads Covers (forInStatement parse) := by
  refine (reads_word _).bind fun _ => (reads_word _).single.optionally.bind fun _ => ?_
  refine (reads_mark _).bind fun _ => ?_
  refine (((reads_oneOfWords _).pair (reads_bindingPattern nested)).orElse
    (reads_pattern nested).single).bind fun _ => ?_
  refine (reads_oneOfWords _).bind fun _ => (nested _).bind fun _ => (reads_mark _).bind fun _ => ?_
  refine (nested _).bind fun _ => ?_
  exact reads_pure fun _ _ inner _ close _ list _ relation _ target _ opening _ await _ keyword =>
    covers_group (((Tiles.cons keyword await).append (.cons opening target)).append
      (.cons relation (.cons list (.cons close (.single inner))))) rfl

theorem reads_forStatement (nested : ReadsNested parse) : Reads Covers (forStatement parse) := by
  refine (reads_word _).bind fun _ => (reads_mark _).bind fun _ => ?_
  refine (reads_emptyStatement.orElse ((reads_variableStatement nested).orElse
    (reads_expressionStatement nested))).bind fun _ => ?_
  refine (reads_emptyStatement.orElse (reads_expressionStatement nested)).bind fun _ => ?_
  refine (nested _).single.optionally.bind fun _ => (reads_mark _).bind fun _ => ?_
  refine (nested _).bind fun _ => ?_
  exact reads_pure fun _ _ inner _ close _ step _ test _ start _ opening _ keyword =>
    covers_group ((Tiles.cons keyword (.cons opening (.cons start (.cons test step)))).append
      (.cons close (.single inner))) rfl

theorem reads_whileStatement (nested : ReadsNested parse) : Reads Covers (whileStatement parse) :=
  (reads_word _).groupOfThree (reads_condition nested) (nested _) rfl

theorem reads_doStatement (nested : ReadsNested parse) : Reads Covers (doStatement parse) := by
  refine (reads_word _).bind fun _ => (nested _).bind fun _ => (reads_word _).bind fun _ => ?_
  refine (reads_condition nested).bind fun _ => (reads_mark _).single.optionally.bind fun _ => ?_
  exact reads_pure fun _ _ ending _ test _ repeats _ inner _ keyword =>
    covers_group
      ((Tiles.cons keyword (.cons inner (.cons repeats (.single test)))).append ending) rfl

theorem reads_catchClause (nested : ReadsNested parse) : Reads Covers (catchClause parse) := by
  have caught : Reads (Tiles Covers) (do
      let opening ← mark "("
      let target := (← bindingPattern parse).withRole .parameter
      let ascription ← optionalAscription parse
      return opening :: target :: ascription ++ [← mark ")"]) := by
    refine (reads_mark _).bind fun _ => (reads_bindingPattern nested).bind fun _ => ?_
    refine (reads_optionalAscription nested).bind fun _ => (reads_mark _).bind fun _ => ?_
    exact reads_pure fun _ _ close _ type _ target _ opening =>
      (Tiles.cons opening (.cons (target.withRole _) type)).append (.single close)
  refine (reads_word _).bind fun _ => caught.optionally.bind fun _ => ?_
  refine (reads_body nested).bind fun _ => ?_
  exact reads_pure fun _ _ body _ caught _ keyword =>
    covers_group ((Tiles.cons keyword caught).append (.single body)) rfl

theorem reads_tryStatement (nested : ReadsNested parse) : Reads Covers (tryStatement parse) := by
  refine (reads_word _).bind fun _ => (reads_body nested).bind fun _ => ?_
  refine (reads_catchClause nested).single.optionally.bind fun _ => ?_
  refine (reads_loneGroup (reads_word _) (reads_body nested) rfl).optionally.bind fun _ => ?_
  exact reads_pure fun _ _ finalizer _ handler _ body _ keyword =>
    covers_group (((Tiles.cons keyword (.single body)).append handler).append finalizer) rfl

theorem looks_atClauseEnd : Looks atClauseEnd :=
  (looks_check _ _).bind fun _ => (looks_check _ _).bind fun _ => (looks_check _ _).bind fun _ =>
    (looks_check _ _).bind fun _ => looks_pure _

theorem reads_clauseStatements (nested : ReadsNested parse) :
    Reads (Tiles Covers) (clauseStatements parse) :=
  Reads.many (looks_atClauseEnd.then fun _ => (nested _).guarded)

theorem reads_switchClause (nested : ReadsNested parse) : Reads Covers (switchClause parse) := by
  refine (looks_check _ _).then fun _ => Reads.ite ?_ ?_
  · refine (reads_word _).bind fun _ => (nested _).bind fun _ => (reads_mark _).bind fun _ => ?_
    refine (reads_clauseStatements nested).bind fun _ => ?_
    exact reads_pure fun _ _ statements _ colon _ value _ keyword =>
      covers_group (.cons keyword (.cons (value.withRole _) (.cons colon statements))) rfl
  · refine (reads_word _).bind fun _ => (reads_mark _).bind fun _ => ?_
    refine (reads_clauseStatements nested).bind fun _ => ?_
    exact reads_pure fun _ _ statements _ colon _ keyword =>
      covers_group (.cons keyword (.cons colon statements)) rfl

theorem reads_switchStatement (nested : ReadsNested parse) :
    Reads Covers (switchStatement parse) := by
  refine (reads_word _).bind fun _ => (reads_condition nested).bind fun _ => ?_
  refine (reads_mark _).bind fun _ => ?_
  refine ((reads_switchClause nested).manyUntil (reads_mark _)).bind fun _ => ?_
  exact reads_pure fun _ _ clauses _ opening _ subject _ keyword =>
    covers_group (.cons keyword (.cons (subject.withRole _)
      (.single ((covers_group (.cons opening clauses) rfl).withRole _)))) rfl

theorem reads_jump (text : String) {kind : Kind} (plain : kind.isPlain = true) :
    Reads Covers (jump text kind) := by
  have label : Reads (Tiles Covers) (do
      guarded (!(← onNewLine)) (do
        return [(← takeIf isFreeName .statementIdentifier none).withRole .label])) :=
    (looks_check _ _).then fun _ => Reads.guarded <| (reads_takeIf _ _ _ rfl).bind fun _ =>
      reads_pure fun _ _ label => .single (label.withRole _)
  refine (reads_word _).bind fun _ => label.optionally.bind fun _ => ?_
  refine reads_semicolon.bind fun _ => ?_
  exact reads_pure fun _ _ ending _ label _ keyword =>
    covers_group ((Tiles.cons keyword label).append ending) plain

theorem reads_returnStatement (nested : ReadsNested parse) :
    Reads Covers (returnStatement parse) := by
  refine (reads_word _).bind fun _ => (looks_check _ _).then fun _ => ?_
  refine Reads.branch reads_none (nested _).single fun _ => reads_semicolon.bind fun _ => ?_
  exact reads_pure fun _ _ ending _ value _ keyword =>
    covers_group ((Tiles.cons keyword value).append ending) rfl

theorem reads_throwStatement (nested : ReadsNested parse) :
    Reads Covers (throwStatement parse) := by
  refine (reads_word _).bind fun _ => (nested _).bind fun _ => reads_semicolon.bind fun _ => ?_
  exact reads_pure fun _ _ ending _ value _ keyword =>
    covers_group (.cons keyword (.cons value ending)) rfl

theorem reads_labeledStatement (nested : ReadsNested parse) :
    Reads Covers (labeledStatement parse) := by
  refine (looks_check _ _).then fun _ => Reads.guarded ?_
  refine (reads_takeIf _ _ _ rfl).bind fun _ => (reads_mark _).bind fun _ => ?_
  refine (nested _).bind fun _ => ?_
  exact reads_pure fun _ _ inner _ colon _ label =>
    covers_group (.cons (label.withRole _) (.cons colon (.single inner))) rfl

theorem reads_debuggerStatement : Reads Covers debuggerStatement :=
  (reads_word _).bind fun _ => reads_semicolon.bind fun _ => reads_pure fun _ _ ending _ keyword =>
    covers_group (.cons keyword ending) rfl

theorem reads_withStatement (nested : ReadsNested parse) : Reads Covers (withStatement parse) :=
  (reads_word _).groupOfThree (reads_condition nested) (nested _) rfl

/-! ## Imports -/

theorem reads_fromClause : Reads (Tiles Covers) fromClause :=
  (reads_word _).bind fun _ => (reads_ofKind _ _ rfl).bind fun _ =>
    reads_pure fun _ _ source _ keyword => .cons keyword (.single (source.withRole _))

theorem reads_importAttribute (nested : ReadsNested parse) :
    Reads (Tiles Covers) (importAttribute parse) :=
  (reads_loneGroup (reads_oneOfWords _) (nested _) rfl).optionally

theorem looks_atSpecifierModifier : Looks atSpecifierModifier :=
  (looks_check _ _).bind fun _ => (looks_check _ _).bind fun _ => (looks_check _ _).bind fun _ =>
    (looks_check _ _).bind fun _ => looks_pure _

theorem reads_importOrExportSpecifier {kind : Kind} (plain : kind.isPlain = true) :
    Reads Covers (importOrExportSpecifier kind) := by
  have renamed : Reads (Tiles Covers) (do
      return [← word "as", (← moduleName).withRole .otherName]) :=
    (reads_word _).bind fun _ => reads_moduleName.bind fun _ =>
      reads_pure fun _ _ name _ keyword => .cons keyword (.single (name.withRole _))
  refine looks_atSpecifierModifier.then fun _ =>
    Reads.branch (reads_oneOfWords _).single reads_none fun _ => ?_
  refine reads_moduleName.bind fun _ => renamed.optionally.bind fun _ => ?_
  exact reads_pure fun _ _ renamed _ name _ modifier =>
    covers_group (modifier.append (.cons (name.withRole _) renamed)) plain

theorem reads_namedImports : Reads Covers namedImports :=
  (reads_bracketed ((reads_importOrExportSpecifier rfl).single) _ _).bind fun _ =>
    reads_pure fun _ _ inside => covers_group inside rfl

theorem reads_namespaceImport : Reads Covers namespaceImport :=
  (reads_mark _).groupOfThree (reads_word _) reads_identifier rfl

theorem reads_importClause : Reads Covers importClause := by
  have lists : Reads Covers (namespaceImport <|> namedImports) :=
    reads_namespaceImport.orElse reads_namedImports
  refine (lists.single.orElse ?_).bind fun _ => reads_pure fun _ _ parts => covers_group parts rfl
  refine reads_identifier.bind fun _ => ((reads_mark _).pair lists).optionally.bind fun _ => ?_
  exact reads_pure fun _ _ others _ name => .cons name others

theorem reads_importModifier : Reads (Tiles Covers) importModifier := by
  refine (looks_check _ _).then fun _ => (looks_check _ _).then fun _ => ?_
  refine (looks_check _ _).then fun _ => (looks_check _ _).then fun _ => ?_
  exact (reads_oneOfWords _).single.optionally.ite reads_none

theorem reads_importRequire : Reads (Tiles Covers) importRequire := by
  refine reads_identifier.bind fun _ => (reads_mark _).bind fun _ => (reads_word _).bind fun _ => ?_
  refine (reads_mark _).bind fun _ => (reads_ofKind _ _ rfl).bind fun _ => ?_
  refine (reads_mark _).bind fun _ => ?_
  exact reads_pure fun _ _ close _ source _ opening _ keyword _ sign _ name =>
    .single (covers_group (.cons name (.cons sign (.cons keyword (.cons opening
      (.cons (source.withRole _) (.single close)))))) rfl)

theorem reads_importStatement (nested : ReadsNested parse) :
    Reads Covers (importStatement parse) := by
  have subject : Reads (Tiles Covers)
      ((do return (← importClause) :: (← fromClause)) <|> importRequire <|>
        (do return [(← ofKind .string .string).withRole .source])) := by
    refine Reads.orElse ?_ (reads_importRequire.orElse ?_)
    · exact reads_importClause.bind fun _ => reads_fromClause.bind fun _ =>
        reads_pure fun _ _ source _ clause => .cons clause source
    · exact (reads_ofKind _ _ rfl).bind fun _ => reads_pure fun _ _ source =>
        .single (source.withRole _)
  refine (reads_word _).bind fun _ => reads_importModifier.bind fun _ => subject.bind fun _ => ?_
  refine (reads_importAttribute nested).bind fun _ => reads_semicolon.bind fun _ => ?_
  exact reads_pure fun _ _ ending _ options _ subject _ modifier _ keyword => covers_group
    ((((Tiles.cons keyword modifier).append subject).append options).append ending) rfl

theorem reads_importAlias : Reads Covers importAlias := by
  refine (reads_word _).bind fun _ => reads_identifier.bind fun _ => (reads_mark _).bind fun _ => ?_
  refine reads_dottedModuleName.bind fun _ => reads_semicolon.bind fun _ => ?_
  exact reads_pure fun _ _ ending _ target _ sign _ name _ keyword =>
    covers_group (.cons keyword (.cons name (.cons sign (.cons target ending)))) rfl

/-! ## Exports -/

theorem reads_exportClause : Reads Covers exportClause :=
  (reads_bracketed ((reads_importOrExportSpecifier rfl).single) _ _).bind fun _ =>
    reads_pure fun _ _ inside => covers_group inside rfl

theorem reads_exportList : Reads (Tiles Covers) exportList := by
  have clause : Reads (Tiles Covers) (do
      let all ← single exportClause
      return all ++ (← optionally fromClause)) :=
    reads_exportClause.single.bind fun _ => reads_fromClause.optionally.bind fun _ =>
      reads_pure fun _ _ source _ all => all.append source
  refine (reads_word _).single.optionally.bind fun _ => (clause.orElse ?_).bind fun _ => ?_
  · refine (reads_mark _).bind fun _ => (looks_check _ _).then fun _ => Reads.ite ?_ ?_
    · refine (reads_word _).bind fun _ => reads_moduleName.bind fun _ => ?_
      simp only [pure_bind]
      refine reads_fromClause.bind fun _ => reads_pure fun _ _ source _ name _ keyword _ star => ?_
      exact .cons (covers_group (.cons star (.cons keyword (.single name))) rfl) source
    · simp only [pure_bind]
      exact reads_fromClause.bind fun _ => reads_pure fun _ _ source _ star => .cons star source
  · exact reads_semicolon.bind fun _ => reads_pure fun _ _ ending _ list _ modifier =>
      (modifier.append list).append ending

theorem reads_defaultExport (nested : ReadsNested parse) :
    Reads (Tiles Covers) (defaultExport parse) := by
  have declared : Reads (Tiles Covers) (do
      let declared ← functionDeclaration parse <|>
        (do classDeclaration parse (← many (decorator parse))) <|> interfaceDeclaration parse
      return [declared.withRole .declaration]) :=
    ((reads_functionDeclaration nested).orElse ((reads_decoratedClass nested).orElse
      (reads_interfaceDeclaration nested))).bind fun _ =>
        reads_pure fun _ _ declared => .single (declared.withRole _)
  refine (reads_word _).bind fun _ => (declared.orElse ?_).bind fun _ => ?_
  · refine (nested _).bind fun _ => reads_semicolon.bind fun _ => ?_
    exact reads_pure fun _ _ ending _ value => .cons (value.withRole _) ending
  · exact reads_pure fun _ _ value _ keyword => .cons keyword value

theorem reads_exportStatement (nested : ReadsNested parse) :
    Reads Covers (exportStatement parse) := by
  refine (reads_decorator nested).many.bind fun _ => (reads_word _).bind fun _ => ?_
  refine (reads_exportList.orElse <| (reads_defaultExport nested).orElse <|
    reads_importAlias.single.orElse <| Reads.orElse ?_ <| Reads.orElse ?_ ?_).bind fun _ => ?_
  · refine (reads_mark _).bind fun _ => (nested _).bind fun _ => reads_semicolon.bind fun _ => ?_
    exact reads_pure fun _ _ ending _ value _ sign => .cons sign (.cons value ending)
  · refine (reads_word _).bind fun _ => (reads_word _).bind fun _ => reads_identifier.bind fun _ => ?_
    refine reads_semicolon.bind fun _ => ?_
    exact reads_pure fun _ _ ending _ name _ second _ first =>
      (Tiles.cons first (.cons second (.single name))).append ending
  · exact (reads_declaration nested).bind fun _ => reads_pure fun _ _ declared =>
      .single (declared.withRole _)
  · exact reads_pure fun _ _ others _ keyword _ decorators =>
      covers_group (decorators.append (.cons keyword others)) rfl

/-! ## All statements -/

theorem reads_namespaceStatement (nested : ReadsNested parse) :
    Reads Covers (namespaceStatement parse) := by
  refine (looks_check _ _).then fun _ => Reads.guarded ?_
  refine (reads_moduleDeclaration nested).bind fun _ => reads_semicolon.bind fun _ => ?_
  exact reads_pure fun _ _ ending _ inner => covers_group (.cons inner ending) rfl

theorem reads_wordStatement (nested : ReadsNested parse) (text : String) :
    Reads Covers (wordStatement parse text) := by
  unfold wordStatement
  split
  · exact reads_ifStatement nested
  · exact (reads_forInStatement nested).orElse (reads_forStatement nested)
  · exact reads_whileStatement nested
  · exact reads_doStatement nested
  · exact reads_tryStatement nested
  · exact reads_switchStatement nested
  · exact reads_jump _ rfl
  · exact reads_jump _ rfl
  · exact reads_returnStatement nested
  · exact reads_throwStatement nested
  · exact reads_debuggerStatement
  · exact reads_withStatement nested
  · exact reads_exportStatement nested
  · exact (reads_importStatement nested).orElse (reads_importAlias.orElse
      (reads_expressionStatement nested))
  · refine (reads_declaration nested).ite ((reads_expressionStatement nested).ite ?_)
    exact (reads_labeledStatement nested).orElse <| (reads_namespaceStatement nested).orElse <|
      (reads_declaration nested).orElse (reads_expressionStatement nested)

theorem reads_statement (nested : ReadsNested parse) : Reads Covers (statement parse) := by
  refine looks_peek.then fun token? => ?_
  cases token? with
  | none => exact reads_failure
  | some token =>
    refine (reads_block nested).ite (reads_emptyStatement.ite (Reads.ite ?_ (Reads.ite ?_ ?_)))
    · exact (reads_exportStatement nested).orElse (reads_declaration nested)
    · exact reads_wordStatement nested _
    · exact reads_expressionStatement nested

/-! ## Units -/

/-- However deep constructs are nested, they cover the tokens that they are read from. -/
theorem reads_parse (fuel : Nat) : ReadsNested (Grammar.parse fuel) := by
  induction fuel with
  | zero => exact fun _ => reads_failure
  | succ fuel nested =>
    intro goal
    rw [Grammar.parse.eq_def]
    cases goal with
    | statement => exact reads_statement nested
    | expression => exact reads_expression nested _
    | sequence => exact reads_sequence nested
    | operand => exact reads_operand nested (reads_classExpression nested)
    | callee => exact reads_callee nested (reads_classExpression nested)
    | type => exact reads_type nested
    | typeOperand => exact reads_typeOperand nested
    | pattern => exact reads_pattern nested

/-- The statements of a unit cover all of its tokens but the last, which its end takes. -/
theorem reads_unitParts (fuel : Nat) :
    Reads (fun parts tokens rest => ∃ shapes last, parts = shapes ++ [.finish] ∧
      Tiles Covers shapes tokens (last :: rest)) (unitParts fuel) := by
  refine (reads_ofKind _ _ rfl).single.optionally.bind fun _ => ?_
  refine ((reads_parse fuel .statement).manyUntil_concat (reads_one _ _ _)).bind fun _ => ?_
  refine reads_pure fun tokens middle statements start hashBang => ?_
  obtain ⟨front, ending, left, rfl, tiles, token, rfl⟩ := statements
  rw [List.dropLast_concat]
  exact ⟨_, token, rfl, hashBang.append tiles⟩

end CreatorMigration.Grammar
