import CreatorMigration.Proofs.Tree.Covering
import CreatorMigration.Tree.Parse

/-! # Clauses of imports

The grammar reads a list of imports or a name space behind `import`, and never both.
`Tree.isLone_of_importStatement` carries this over to the import statements of a tree.
-/

namespace CreatorMigration

namespace Grammar

/-! ## What a parser can read -/

/-- Whatever the parser reads has the property. -/
def Yields {α : Type} (property : α → Prop) (parser : Parser α) : Prop :=
  ∀ tokens answer rest, parser tokens = some (answer, rest) → property answer

section

variable {α β : Type} {property : α → Prop} {other : β → Prop} {parser : Parser α}

/-- A property of the answer alone says nothing of the tokens that are taken. -/
theorem yields_iff_reads :
    Yields property parser ↔ Reads (fun answer _ _ => property answer) parser :=
  Iff.rfl

theorem yields_pure {value : α} (holds : property value) :
    Yields property (pure value : Parser α) :=
  yields_iff_reads.2 (reads_pure fun _ => holds)

theorem yields_failure : Yields property (failure : Parser α) :=
  yields_iff_reads.2 reads_failure

theorem Yields.bind {next : α → Parser β} (first : Yields property parser)
    (second : ∀ answer, property answer → Yields other (next answer)) :
    Yields other (parser >>= next) := by
  refine yields_iff_reads.2 (Reads.bind (yields_iff_reads.1 first) fun answer => ?_)
  intro middle last rest read tokens holds
  exact second answer holds middle last rest read

/-- What is read first may not matter. -/
theorem yields_bind {next : α → Parser β} (second : ∀ answer, Yields other (next answer)) :
    Yields other (parser >>= next) :=
  have anything : Yields (fun _ => True) parser := fun _ _ _ _ => trivial
  anything.bind fun answer _ => second answer

theorem Yields.orElse {alternative : Unit → Parser α} (first : Yields property parser)
    (second : Yields property (alternative ())) :
    Yields property (HOrElse.hOrElse parser alternative) :=
  yields_iff_reads.2 (Reads.orElse (yields_iff_reads.1 first) (yields_iff_reads.1 second))

theorem Yields.guarded {condition : Bool} (first : Yields property parser) :
    Yields property (guarded condition parser) :=
  yields_iff_reads.2 (Reads.guarded (yields_iff_reads.1 first))

theorem Yields.ite {condition : Prop} [Decidable condition] {alternative : Parser α}
    (first : Yields property parser) (second : Yields property alternative) :
    Yields property (if condition then parser else alternative) :=
  yields_iff_reads.2 (Reads.ite (yields_iff_reads.1 first) (yields_iff_reads.1 second))

/-- A reading of several parts, each with the property. -/
theorem Yields.optionally {part : Shape → Prop} {parts : Parser (List Shape)}
    (first : Yields (fun read => ∀ shape ∈ read, part shape) parts) :
    Yields (fun read => ∀ shape ∈ read, part shape) (optionally parts) :=
  first.orElse (yields_pure (by simp))

theorem Yields.single {part : Shape → Prop} {shape : Parser Shape} (first : Yields part shape) :
    Yields (fun read => ∀ shape ∈ read, part shape) (single shape) :=
  first.bind fun answer holds => yields_pure (by simpa using holds)

theorem yields_takeIf {part : Shape → Prop} {kind : Kind} {role : Option Role}
    {holds : Token → Bool} (leaf : part (.leaf kind role)) :
    Yields part (takeIf holds kind role) := by
  intro tokens answer rest read
  cases tokens with
  | nil => cases read
  | cons token others =>
    rw [takeIf] at read
    split at read
    · cases read
      exact leaf
    · cases read

/-- The items of a repetition are read by the parser or by the one that ends it. -/
theorem Yields.manyUntil {finish : Parser α} (each : Yields property parser) :
    Yields (fun answers => ∀ answer ∈ answers.dropLast, property answer)
      (manyUntil parser finish) := by
  have anything : Reads (fun _ _ _ => True) finish := fun _ _ _ _ => trivial
  intro tokens answers rest read
  obtain ⟨front, ending, middle, rfl, tiles, -⟩ :=
    (yields_iff_reads.1 each).manyUntil_concat anything _ _ _ read
  rw [List.dropLast_concat]
  exact tiles.forall_mem

end

/-! ## Clauses -/

/-- A clause has a list or a name space. -/
def IsLone (parts : List Shape) : Prop :=
  (∀ part ∈ parts, part.hasKind .namespaceImport = false) ∨
    ∀ part ∈ parts, part.hasKind .namedImports = false

/-- If the shape is a clause, it has a list or a name space. -/
def IsFineClause (shape : Shape) : Prop :=
  ∀ kind role parts, shape = .group kind role parts → kind = .importClause → IsLone parts

/-- If the shape is an import statement, its clause has a list or a name space. -/
def IsFineStatement (shape : Shape) : Prop :=
  ∀ kind role parts, shape = .group kind role parts → kind = .importStatement →
    ∀ part ∈ parts, IsFineClause part

theorem isFineClause_leaf (kind : Kind) (role : Option Role) : IsFineClause (.leaf kind role) := by
  intro _ _ _ same
  cases same

theorem isFineClause_missingSemicolon : IsFineClause .missingSemicolon := by
  intro _ _ _ same
  cases same

theorem isFineClause_group {kind : Kind} (other : kind ≠ .importClause) (parts : List Shape) :
    IsFineClause (group kind parts) := by
  intro _ _ _ same clause
  cases same
  exact absurd clause other

theorem isFineClause_withRole {shape : Shape} (fine : IsFineClause shape) (role : Role) :
    IsFineClause (shape.withRole role) := by
  cases shape with
  | leaf kind own => exact isFineClause_leaf kind _
  | missingSemicolon => exact fine
  | finish => exact fine
  | group kind own parts =>
    intro _ _ _ same clause
    cases same
    exact fine _ _ _ rfl clause

theorem isFineStatement_group {kind : Kind} (other : kind ≠ .importStatement)
    (parts : List Shape) : IsFineStatement (group kind parts) := by
  intro _ _ _ same statement
  cases same
  exact absurd statement other

/-- A list of imports or a name space. -/
theorem yields_lists : Yields (fun shape => IsLone [shape]) (namespaceImport <|> namedImports) := by
  refine Yields.orElse ?_ ?_
  · refine yields_bind fun _ => yields_bind fun _ => yields_bind fun _ => yields_pure ?_
    exact .inr (by simp [Shape.hasKind, group])
  · refine yields_bind fun _ => yields_pure ?_
    exact .inl (by simp [Shape.hasKind, group])

theorem IsLone.cons_leaf {parts : List Shape} (lone : IsLone parts) {kind : Kind}
    (noSpace : kind ≠ .namespaceImport) (noList : kind ≠ .namedImports) (role : Option Role) :
    IsLone (.leaf kind role :: parts) := by
  refine lone.imp (fun each => ?_) fun each => ?_
  · exact List.forall_mem_cons.2 ⟨by simpa [Shape.hasKind] using noSpace, each⟩
  · exact List.forall_mem_cons.2 ⟨by simpa [Shape.hasKind] using noList, each⟩

theorem yields_leaf {holds : Token → Bool} {kind : Kind} {role : Option Role} :
    Yields (· = .leaf kind role) (takeIf holds kind role) :=
  yields_takeIf rfl

theorem yields_importClause : Yields IsFineClause importClause := by
  have parts : Yields IsLone (single (namespaceImport <|> namedImports) <|> do
      let name ← identifier
      let others ← optionally do return [← mark ",", ← namespaceImport <|> namedImports]
      return name :: others) := by
    refine Yields.orElse (yields_lists.bind fun _ lone => yields_pure lone) ?_
    refine yields_leaf.bind fun name isName => ?_
    have others : Yields IsLone
        (optionally do return [← mark ",", ← namespaceImport <|> namedImports]) := by
      refine Yields.orElse ?_ (yields_pure (.inl (by simp)))
      refine yields_leaf.bind fun comma isComma => yields_lists.bind fun list lone => ?_
      subst isComma
      exact yields_pure (lone.cons_leaf (by decide) (by decide) none)
    refine others.bind fun others lone => ?_
    subst isName
    exact yields_pure (lone.cons_leaf (by decide) (by decide) none)
  refine parts.bind fun parts lone => yields_pure ?_
  intro kind role own same _
  cases same
  exact lone

theorem yields_semicolon :
    Yields (fun parts => ∀ part ∈ parts, IsFineClause part) semicolon := by
  intro tokens parts rest read
  unfold semicolon at read
  split at read
  · split at read
    · cases read
      simpa using isFineClause_leaf _ _
    · split at read
      · cases read
        simpa using isFineClause_missingSemicolon
      · cases read
  · cases read

theorem yields_importStatement (parse : Parse) :
    Yields IsFineStatement (importStatement parse) := by
  have token {holds : Token → Bool} {kind : Kind} {role : Option Role} :
      Yields IsFineClause (takeIf holds kind role) := yields_takeIf (isFineClause_leaf kind role)
  have modifier : Yields (fun parts => ∀ part ∈ parts, IsFineClause part) importModifier := by
    unfold importModifier
    refine yields_bind fun lists => yields_bind fun named => yields_bind fun first => ?_
    refine yields_bind fun second => ?_
    dsimp only
    split
    · exact token.single.optionally
    · exact yields_pure (by simp)
  have source : Yields (fun parts => ∀ part ∈ parts, IsFineClause part) fromClause := by
    refine token.bind fun keyword fine => token.bind fun name fineName => yields_pure ?_
    simpa [fine] using isFineClause_withRole fineName .source
  have required : Yields (fun parts => ∀ part ∈ parts, IsFineClause part) importRequire := by
    refine yields_bind fun name => yields_bind fun sign => yields_bind fun keyword => ?_
    refine yields_bind fun opening => yields_bind fun text => yields_bind fun close => ?_
    exact yields_pure (by simpa using isFineClause_group (by decide) _)
  have options : Yields (fun parts => ∀ part ∈ parts, IsFineClause part)
      (importAttribute parse) := by
    refine Yields.optionally (yields_bind fun keyword => yields_bind fun value => ?_)
    exact yields_pure (by simpa using isFineClause_group (by decide) _)
  have subject : Yields (fun parts => ∀ part ∈ parts, IsFineClause part)
      ((do return (← importClause) :: (← fromClause)) <|> importRequire <|>
        (do return [(← ofKind .string .string).withRole .source])) := by
    refine Yields.orElse ?_ (required.orElse ?_)
    · refine yields_importClause.bind fun clause fine => source.bind fun parts fineParts => ?_
      exact yields_pure (List.forall_mem_cons.2 ⟨fine, fineParts⟩)
    · refine token.bind fun text fine => yields_pure ?_
      simpa using isFineClause_withRole fine .source
  unfold importStatement
  refine token.bind fun keyword fine => modifier.bind fun modifiers fineModifiers => ?_
  refine subject.bind fun parts fineParts => options.bind fun attributes fineAttributes => ?_
  refine yields_semicolon.bind fun ending fineEnding => yields_pure ?_
  intro kind role own same _
  cases same
  simp only [List.forall_mem_append, List.forall_mem_cons]
  exact ⟨⟨⟨⟨fine, fineModifiers⟩, fineParts⟩, fineAttributes⟩, fineEnding⟩

/-! ## Statements -/

/-- Most statements are read part by part and then grouped under their own kind. -/
theorem yields_group {kind : Kind} (other : kind ≠ .importStatement) (parts : List Shape) :
    Yields IsFineStatement (pure (group kind parts)) :=
  yields_pure (isFineStatement_group other parts)

section

variable (parse : Parse)

theorem yields_variableStatement : Yields IsFineStatement (variableStatement parse) := by
  refine yields_bind fun isVar => yields_bind fun binds => yields_bind fun keyword => ?_
  refine yields_bind fun declarators => yields_bind fun ending => yields_group ?_ _
  cases isVar <;> decide

theorem yields_functionDeclaration : Yields IsFineStatement (functionDeclaration parse) := by
  refine yields_bind fun (generates, head) => yields_bind fun blockFollows => ?_
  cases blockFollows with
  | true =>
    refine yields_bind fun block => yields_bind fun ending => yields_group ?_ _
    cases generates <;> decide
  | false => exact yields_bind fun ending => yields_group (by decide) _

theorem yields_classDeclaration (decorators : List Shape) :
    Yields IsFineStatement (classDeclaration parse decorators) := by
  refine yields_bind fun isAbstract => ?_
  cases isAbstract with
  | true => exact yields_bind fun keyword => yields_bind fun parts => yields_group (by decide) _
  | false => exact yields_bind fun parts => yields_bind fun ending => yields_group (by decide) _

theorem yields_moduleDeclaration : Yields IsFineStatement (moduleDeclaration parse) := by
  refine yields_bind fun isNamespace => yields_bind fun named => yields_bind fun keyword => ?_
  refine yields_bind fun name => yields_bind fun blockFollows => ?_
  have other : (if isNamespace = true then Kind.internalModule else Kind.externalModule) ≠
      .importStatement := by
    cases isNamespace <;> decide
  cases blockFollows with
  | true => exact yields_bind fun body => yields_group other _
  | false => exact yields_bind fun ending => yields_group other _

theorem yields_ambient : Yields IsFineStatement (declaration.ambient parse) := by
  refine yields_bind fun words => yields_bind fun keyword => yields_bind fun onNewLine => ?_
  refine Yields.guarded (yields_bind fun isGlobal => yields_bind fun braces => ?_)
  split
  · exact yields_bind fun keyword => yields_bind fun block => yields_group (by decide) _
  · exact yields_bind fun inner => yields_group (by decide) _

/-- No declaration is an import. -/
theorem yields_declaration : Yields IsFineStatement (declaration parse) := by
  have enumerated : Yields IsFineStatement (enumDeclaration parse) :=
    yields_bind fun constant => yields_bind fun keyword => yields_bind fun name =>
      yields_bind fun members => yields_group (by decide) _
  have interfaced : Yields IsFineStatement (interfaceDeclaration parse) :=
    yields_bind fun named => yields_bind fun keyword => yields_bind fun name =>
      yields_bind fun types => yields_bind fun heritage => yields_bind fun members =>
        yields_group (by decide) _
  have aliased : Yields IsFineStatement (typeAlias parse) :=
    yields_bind fun named => yields_bind fun keyword => yields_bind fun name =>
      yields_bind fun types => yields_bind fun sign => yields_bind fun value =>
        yields_bind fun ending => yields_group (by decide) _
  have classes : Yields IsFineStatement
      (do classDeclaration parse (← many (decorator parse))) :=
    yields_bind fun decorators => yields_classDeclaration parse decorators
  unfold declaration
  exact enumerated.orElse ((yields_variableStatement parse).orElse
    ((yields_functionDeclaration parse).orElse (classes.orElse (interfaced.orElse
      (aliased.orElse ((yields_moduleDeclaration parse).orElse (yields_ambient parse)))))))

theorem yields_expressionStatement : Yields IsFineStatement (expressionStatement parse) :=
  yields_bind fun inner => yields_bind fun ending => yields_group (by decide) _

theorem yields_exportStatement : Yields IsFineStatement (exportStatement parse) :=
  yields_bind fun decorators => yields_bind fun keyword => yields_bind fun rest =>
    yields_group (by decide) _

theorem yields_returnStatement : Yields IsFineStatement (returnStatement parse) := by
  refine yields_bind fun keyword => yields_bind fun ended => ?_
  cases ended with
  | true =>
    exact yields_bind fun value => yields_bind fun ending => yields_group (by decide) _
  | false =>
    exact yields_bind fun value => yields_bind fun ending => yields_group (by decide) _

theorem yields_forStatements :
    Yields IsFineStatement (forInStatement parse <|> forStatement parse) := by
  refine Yields.orElse ?_ ?_
  · exact yields_bind fun keyword => yields_bind fun await => yields_bind fun opening =>
      yields_bind fun target => yields_bind fun relation => yields_bind fun list =>
        yields_bind fun close => yields_bind fun body => yields_group (by decide) _
  · exact yields_bind fun keyword => yields_bind fun opening => yields_bind fun start =>
      yields_bind fun test => yields_bind fun step => yields_bind fun close =>
        yields_bind fun body => yields_group (by decide) _

theorem yields_importStatements : Yields IsFineStatement
    (importStatement parse <|> importAlias <|> expressionStatement parse) := by
  refine (yields_importStatement parse).orElse
    (Yields.orElse ?_ (yields_expressionStatement parse))
  exact yields_bind fun keyword => yields_bind fun name => yields_bind fun sign =>
    yields_bind fun target => yields_bind fun ending => yields_group (by decide) _

/-- A statement that starts with a word that may also be a name. -/
theorem yields_namedStatement : Yields IsFineStatement
    (labeledStatement parse <|> namespaceStatement parse <|> declaration parse <|>
      expressionStatement parse) := by
  refine Yields.orElse ?_ (Yields.orElse ?_
    ((yields_declaration parse).orElse (yields_expressionStatement parse)))
  · refine yields_bind fun colonFollows => Yields.guarded ?_
    exact yields_bind fun name => yields_bind fun colon => yields_bind fun inner =>
      yields_group (by decide) _
  · refine yields_bind fun isNamespace => Yields.guarded ?_
    exact yields_bind fun inner => yields_bind fun ending => yields_group (by decide) _

theorem yields_wordStatement (text : String) :
    Yields IsFineStatement (wordStatement parse text) := by
  unfold wordStatement
  split
  case h_2 => exact yields_forStatements parse
  case h_9 => exact yields_returnStatement parse
  case h_13 => exact yields_exportStatement parse
  case h_14 => exact yields_importStatements parse
  case h_15 =>
    split
    · exact yields_declaration parse
    · split
      · exact yields_expressionStatement parse
      · exact yields_namedStatement parse
  -- the others are read part by part, each with its own keyword
  all_goals
    repeat first
      | exact yields_group (by decide) _
      | refine yields_bind fun _ => ?_

theorem yields_statement : Yields IsFineStatement (statement parse) := by
  refine yields_bind fun next => ?_
  cases next with
  | none => exact yields_failure
  | some token =>
    dsimp only
    repeat' split
    · exact yields_bind fun opening => yields_bind fun statements => yields_bind fun ending =>
        yields_group (by decide) _
    · exact yields_bind fun mark => yields_group (by decide) _
    · exact (yields_exportStatement parse).orElse (yields_declaration parse)
    · exact yields_wordStatement parse token.text
    · exact yields_expressionStatement parse

end

end Grammar

/-! ## Trees -/

namespace Shape

mutual

/-- The node is dealt out for the shape: it has its kind, and its children are dealt out for the
parts. -/
inductive Renders : Shape → Node → Prop where
  | leaf {kind : Kind} {role : Option Role} {span : Span} :
      Renders (.leaf kind role) ⟨kind, role, span, []⟩
  | group {kind : Kind} {role : Option Role} {parts : List Shape} {span : Span}
      {children : List Node} (below : ∀ child ∈ children, RendersPart parts child) :
      Renders (.group kind role parts) ⟨kind, role, span, children⟩

/-- The node is dealt out for one of the parts, or it is a comment between them. -/
inductive RendersPart : List Shape → Node → Prop where
  | comment {parts : List Shape} {node : Node} (isComment : node.isComment = true) :
      RendersPart parts node
  | part {parts : List Shape} {part : Shape} {node : Node} (member : part ∈ parts)
      (renders : Renders part node) : RendersPart parts node

end

theorem RendersPart.mono {parts more : List Shape} {node : Node}
    (renders : RendersPart parts node) (subset : ∀ part ∈ parts, part ∈ more) :
    RendersPart more node := by
  cases renders with
  | comment isComment => exact .comment isComment
  | part member renders => exact .part (subset _ member) renders

theorem isComment_of_mem_commentNodes {comments : List Comment} {node : Node}
    (member : node ∈ commentNodes comments) : node.isComment = true := by
  obtain ⟨comment, _, rfl⟩ := List.mem_map.1 member
  rfl

theorem mem_enclose {kind : Kind} {role : Option Role} {nodes : List Node} {node : Node}
    (member : node ∈ enclose kind role nodes) :
    ∃ span, node = ⟨kind, role, span, nodes⟩ := by
  cases nodes with
  | nil => simp [enclose] at member
  | cons first rest => exact ⟨_, List.mem_singleton.1 member⟩

mutual

theorem renders_weave : ∀ (shape : Shape) {tokens : List Token} {woven : Woven},
    weave shape tokens = some woven →
      (∀ node ∈ woven.lead, node.isComment = true) ∧ ∀ node ∈ woven.nodes, Renders shape node
  | leaf kind role, tokens, woven, wove => by
    cases tokens with
    | nil => cases wove
    | cons token rest =>
      cases wove
      exact ⟨fun _ member => isComment_of_mem_commentNodes member, by simpa using .leaf⟩
  | missingSemicolon, tokens, woven, wove => by
    cases tokens with
    | nil => cases wove
    | cons token rest =>
      cases wove
      exact ⟨fun _ member => isComment_of_mem_commentNodes member, by simp⟩
  | finish, tokens, woven, wove => by
    cases tokens with
    | nil => cases wove
    | cons token rest =>
      cases wove
      exact ⟨fun _ member => isComment_of_mem_commentNodes member, by simp⟩
  | group kind role parts, tokens, woven, wove => by
    obtain ⟨inner, woveParts, rfl⟩ := Option.map_eq_some_iff.1 wove
    obtain ⟨lead, nodes⟩ := renders_weaveAll parts woveParts
    refine ⟨lead, fun node member => ?_⟩
    obtain ⟨span, rfl⟩ := mem_enclose member
    exact .group nodes

theorem renders_weaveAll : ∀ (shapes : List Shape) {tokens : List Token} {woven : Woven},
    weaveAll shapes tokens = some woven →
      (∀ node ∈ woven.lead, node.isComment = true) ∧
        ∀ node ∈ woven.nodes, RendersPart shapes node
  | [], tokens, woven, wove => by
    cases wove
    exact ⟨by simp, by simp⟩
  | shape :: shapes, tokens, woven, wove => by
    obtain ⟨first, woveFirst, others⟩ := Option.bind_eq_some_iff.1 wove
    obtain ⟨second, woveSecond, same⟩ := Option.bind_eq_some_iff.1 others
    cases same
    obtain ⟨lead, nodes⟩ := renders_weave shape woveFirst
    obtain ⟨leadThen, nodesThen⟩ := renders_weaveAll shapes woveSecond
    have own : ∀ node ∈ first.nodes, RendersPart (shape :: shapes) node :=
      fun node member => .part List.mem_cons_self (nodes node member)
    have others : ∀ node ∈ second.nodes, RendersPart (shape :: shapes) node :=
      fun node member => (nodesThen node member).mono fun part => List.mem_cons_of_mem _
    unfold Woven.followedBy
    split
    · exact ⟨List.forall_mem_append.2 ⟨lead, leadThen⟩, others⟩
    · refine ⟨lead, ?_⟩
      simp only [List.forall_mem_append]
      exact ⟨⟨own, fun node member => .comment (leadThen node member)⟩, others⟩

end

end Shape

namespace Node

/-- An import clause has a list or a name space. -/
def IsLone (clause : Node) : Prop :=
  (∀ part ∈ clause.children, part.kind ≠ .namespaceImport) ∨
    ∀ part ∈ clause.children, part.kind ≠ .namedImports

end Node

open Shape Grammar

theorem Shape.Renders.kind_eq {shape : Shape} {node : Node} (renders : Renders shape node) :
    shape.hasKind node.kind = true := by
  cases renders <;> simp [hasKind]

theorem Shape.Renders.isLone {shape : Shape} {node : Node} (renders : Renders shape node)
    (clause : node.kind = .importClause) (fine : IsFineClause shape) : node.IsLone := by
  cases renders with
  | leaf => exact .inl (by simp)
  | @group kind role parts span children below =>
    have kindOf {child : Node} {kind : Kind} (member : child ∈ children)
        (noComment : kind ≠ .comment)
        (without : ∀ part ∈ parts, part.hasKind kind = false) : child.kind ≠ kind := by
      rintro rfl
      cases below child member with
      | comment isComment => exact noComment (by simpa [Node.isComment] using isComment)
      | part partMember renders =>
        exact absurd renders.kind_eq (by simp [without _ partMember])
    exact (fine _ _ _ rfl clause).imp
      (fun without child member => kindOf member (by decide) without)
      fun without child member => kindOf member (by decide) without

theorem Shape.Renders.isLone_of_importStatement {shape : Shape} {statement clause : Node}
    (renders : Renders shape statement) (imports : statement.kind = .importStatement)
    (fine : IsFineStatement shape) (child : clause ∈ statement.children)
    (isClause : clause.kind = .importClause) : clause.IsLone := by
  cases renders with
  | leaf => cases child
  | group below =>
    cases below clause child with
    | comment isComment => simp [Node.isComment, isClause] at isComment
    | part member renders => exact renders.isLone isClause (fine _ _ _ rfl imports _ member)

theorem Grammar.yields_parse_statement (fuel : Nat) :
    Yields IsFineStatement (parse fuel .statement) := by
  cases fuel with
  | zero => exact yields_failure
  | succ fuel => exact yields_statement (parse fuel)

theorem Grammar.yields_unitParts (fuel : Nat) :
    Yields (fun parts => ∀ part ∈ parts, IsFineStatement part) (unitParts fuel) := by
  have line : Yields (fun parts => ∀ part ∈ parts, IsFineStatement part)
      (optionally (single (ofKind .hashBang .hashBangLine))) :=
    Yields.optionally (Yields.single (yields_takeIf (by intro _ _ _ same; cases same)))
  refine line.bind fun hashBang fineLine => ?_
  refine (yields_parse_statement fuel).manyUntil.bind fun statements fine => yields_pure ?_
  simp only [List.forall_mem_append, List.forall_mem_singleton]
  exact ⟨⟨fineLine, fine⟩, by intro _ _ _ same; cases same⟩

/-- The clause of each import statement of a tree has a list or a name space. -/
theorem Tree.isLone_of_importStatement {text : String} {statement clause : Node}
    (member : statement ∈ (Tree.parse text).children) (imports : statement.kind = .importStatement)
    (child : clause ∈ statement.children) (isClause : clause.kind = .importClause) :
    clause.IsLone := by
  obtain ⟨tokens, parts, rest, woven, _, read, wove, within⟩ := exists_woven_of_mem_children member
  have fine := yields_unitParts _ _ _ _ read
  obtain ⟨lead, nodes⟩ := renders_weaveAll parts wove
  have renders : RendersPart parts statement := by
    cases List.mem_append.1 within with
    | inl inLead => exact .comment (lead statement inLead)
    | inr inNodes => exact nodes statement inNodes
  cases renders with
  | comment isComment => simp [Node.isComment, imports] at isComment
  | part shapeMember renders =>
    exact renders.isLone_of_importStatement imports (fine _ shapeMember) child isClause

end CreatorMigration
