import CreatorMigration.Tree.Grammar.Classes

/-! # Statements in the grammar

A word like `type` or `declare` starts a declaration only where the words behind it say so;
elsewhere it is a name like any other.
-/

namespace CreatorMigration.Grammar

/-! ## Variables -/

def declarator (parse : Parse) : Parser Shape := do
  let name := (← bindingPattern parse).withRole .name
  let definite ← optionally (single (mark "!"))
  let ascription ← optionalAscription parse
  let value ← optionally (initializer parse)
  return group .variableDeclarator (name :: definite ++ ascription ++ value)

def startsBinding (token : Token) : Bool :=
  isFreeName token || token.isPunctuation "\x7b" || token.isPunctuation "["

def variableStatement (parse : Parse) : Parser Shape := do
  let kind := if ← atWord "var" then Kind.variableDeclaration else Kind.lexicalDeclaration
  let keyword ← guarded (← check startsBinding 1) (oneOfWords ["var", "let", "const"])
  let declarators ← commaSeparated (declarator parse)
  return group kind (keyword :: declarators ++ (← semicolon))

/-! ## Functions, enums, interfaces and aliases -/

def functionDeclaration (parse : Parse) : Parser Shape := do
  let (generates, head) ← functionHead parse (do return [(← identifier).withRole .name])
  if ← atMark "\x7b" then
    let kind := if generates then Kind.generatorFunctionDeclaration else Kind.functionDeclaration
    let block ← body parse
    return group kind (head ++ block :: (← trailingSemicolon))
  else return group .functionSignature (head ++ (← semicolon))

def enumMember (parse : Parse) : Parser Shape := do
  let name := (← memberName parse).withRole .name
  if ← atMark "=" then return group .enumAssignment (name :: (← initializer parse))
  else return name

def enumDeclaration (parse : Parse) : Parser Shape := do
  let constant ← optionally (single (word "const"))
  let keyword ← word "enum"
  let name := (← identifier).withRole .name
  let members := group .enumBody (← bracketed "\x7b" "\x7d" (single (enumMember parse)))
  return group .enumDeclaration (constant ++ [keyword, name, members.withRole .body])

def interfaceDeclaration (parse : Parse) : Parser Shape := do
  let keyword ← guarded (← check isFreeName 1) (word "interface")
  let name := (← typeName).withRole .name
  let types ← optionally (single (typeParameters parse))
  let heritage ← optionally do
    let keyword ← word "extends"
    return [group .extendsTypeClause (keyword :: (← commaSeparated (parse .type)))]
  let members := (← objectTypeAs .interfaceBody parse).withRole .body
  return group .interfaceDeclaration (keyword :: name :: types ++ heritage ++ [members])

def typeAlias (parse : Parse) : Parser Shape := do
  let keyword ← guarded (← check isFreeName 1) (word "type")
  let name := (← typeName).withRole .name
  let types ← optionally (single (typeParameters parse))
  let sign ← mark "="
  let value := (← parse .type).withRole .value
  return group .typeAliasDeclaration (keyword :: name :: types ++ sign :: value :: (← semicolon))

/-! ## Modules and ambient declarations -/

def dottedModuleName : Parser Shape := do
  let first ← ofKind .string .string <|> identifier
  let dotted ← many do return (← mark ".", ← anyWord .propertyIdentifier)
  return dotted.foldl (fun target (dot, name) =>
    group .nestedIdentifier [target.withRole .object, dot, name.withRole .property]) first

def moduleDeclaration (parse : Parse) : Parser Shape := do
  let kind := if ← atWord "namespace" then Kind.internalModule else Kind.externalModule
  let keyword ← guarded (← check (fun token => isFreeName token || token.kind == .string) 1)
    (oneOfWords ["namespace", "module"])
  let name := (← dottedModuleName).withRole .name
  if ← atMark "\x7b" then return group kind [keyword, name, ← body parse]
  else return group kind (keyword :: name :: (← semicolon))

/-- Declarations as they may also follow `export`. -/
def declaration (parse : Parse) : Parser Shape :=
  enumDeclaration parse <|> variableStatement parse <|> functionDeclaration parse <|>
  (do classDeclaration parse (← many (decorator parse))) <|>
  interfaceDeclaration parse <|> typeAlias parse <|> moduleDeclaration parse <|> ambient
where
  ambient : Parser Shape := do
    let keyword ← guarded (← check (·.kind == .word) 1) (word "declare")
    guarded (!(← onNewLine)) do
      if (← atWord "global") && (← atMarkAfter 1 "\x7b") then
        return group .ambientDeclaration [keyword, ← word "global", ← block parse]
      else
        return group .ambientDeclaration [keyword, (← parse .statement).withRole .declaration]

/-! ## Control -/

def condition (parse : Parse) : Parser Shape := do
  return group .parenthesizedExpression [← mark "(", ← parse .sequence, ← mark ")"]

def ifStatement (parse : Parse) : Parser Shape := do
  let keyword ← word "if"
  let test ← condition parse
  let consequence ← parse .statement
  let alternative ← optionally do
    return [group .elseClause [← word "else", ← parse .statement]]
  return group .ifStatement (keyword :: test :: consequence :: alternative)

def expressionStatement (parse : Parse) : Parser Shape := do
  let inner ← parse .sequence
  return group .expressionStatement (inner :: (← semicolon))

def emptyStatement : Parser Shape := do return group .emptyStatement [← mark ";"]

/-- `for (const x of xs)` and `for (k in o)` -/
def forInStatement (parse : Parse) : Parser Shape := do
  let keyword ← word "for"
  let await ← optionally (single (word "await"))
  let opening ← mark "("
  let target ←
    (do
      let kind ← oneOfWords ["var", "let", "const"]
      return [kind, ← bindingPattern parse]) <|> single (pattern parse)
  let relation ← oneOfWords ["of", "in"]
  let list ← parse .sequence
  let close ← mark ")"
  return group .forInStatement
    (keyword :: await ++ opening :: target ++ [relation, list, close, ← parse .statement])

def forStatement (parse : Parse) : Parser Shape := do
  let keyword ← word "for"
  let opening ← mark "("
  let start ← emptyStatement <|> variableStatement parse <|> expressionStatement parse
  let test ← emptyStatement <|> expressionStatement parse
  let step ← optionally (single (parse .sequence))
  let close ← mark ")"
  return group .forStatement (keyword :: opening :: start :: test :: step ++
    [close, ← parse .statement])

def whileStatement (parse : Parse) : Parser Shape := do
  return group .whileStatement [← word "while", ← condition parse, ← parse .statement]

def doStatement (parse : Parse) : Parser Shape := do
  let keyword ← word "do"
  let inner ← parse .statement
  let tail := [← word "while", ← condition parse]
  return group .doStatement (keyword :: inner :: tail ++ (← optionally (single (mark ";"))))

def catchClause (parse : Parse) : Parser Shape := do
  let keyword ← word "catch"
  let caught ← optionally do
    let opening ← mark "("
    let target := (← bindingPattern parse).withRole .parameter
    let ascription ← optionalAscription parse
    return opening :: target :: ascription ++ [← mark ")"]
  return group .catchClause (keyword :: caught ++ [← body parse])

def tryStatement (parse : Parse) : Parser Shape := do
  let start := [← word "try", ← body parse]
  let handler ← optionally (single (catchClause parse))
  let finalizer ← optionally do
    return [group .finallyClause [← word "finally", ← body parse]]
  return group .tryStatement (start ++ handler ++ finalizer)

/-- Whether a clause of a switch, or its end, follows. -/
def atClauseEnd : Parser Bool := do
  return (← atMark "\x7d") || (← atWord "case") ||
    ((← atWord "default") && (← atMarkAfter 1 ":"))

def clauseStatements (parse : Parse) : Parser (List Shape) :=
  many do guarded (!(← atClauseEnd)) (parse .statement)

def switchClause (parse : Parse) : Parser Shape := do
  if ← atWord "case" then
    let keyword ← word "case"
    let value := (← parse .sequence).withRole .value
    let colon ← mark ":"
    return group .switchCase (keyword :: value :: colon :: (← clauseStatements parse))
  else
    let keyword ← word "default"
    let colon ← mark ":"
    return group .switchDefault (keyword :: colon :: (← clauseStatements parse))

def switchStatement (parse : Parse) : Parser Shape := do
  let keyword ← word "switch"
  let subject := (← condition parse).withRole .value
  let opening ← mark "\x7b"
  let clauses ← manyUntil (switchClause parse) (mark "\x7d")
  return group .switchStatement
    [keyword, subject, (group .switchBody (opening :: clauses)).withRole .body]

/-- `break` and `continue`, with a label on the same line. -/
def jump (text : String) (kind : Kind) : Parser Shape := do
  let keyword ← word text
  let target ← optionally do
    guarded (!(← onNewLine)) (do
      return [(← takeIf isFreeName .statementIdentifier none).withRole .label])
  return group kind (keyword :: target ++ (← semicolon))

def returnStatement (parse : Parse) : Parser Shape := do
  let keyword ← word "return"
  let ended ← check (fun token => token.lineBreak || token.kind == .finish ||
    token.isPunctuation ";" || token.isPunctuation "\x7d") 0
  let value ← if ended then pure [] else single (parse .sequence)
  return group .returnStatement (keyword :: value ++ (← semicolon))

def throwStatement (parse : Parse) : Parser Shape := do
  let keyword ← word "throw"
  let value ← parse .sequence
  return group .throwStatement (keyword :: value :: (← semicolon))

def labeledStatement (parse : Parse) : Parser Shape := do
  guarded (← atMarkAfter 1 ":") do
    let name ← takeIf isFreeName .statementIdentifier none
    let colon ← mark ":"
    return group .labeledStatement [name.withRole .label, colon, ← parse .statement]

def debuggerStatement : Parser Shape := do
  let keyword ← word "debugger"
  return group .debuggerStatement (keyword :: (← semicolon))

def withStatement (parse : Parse) : Parser Shape := do
  return group .withStatement [← word "with", ← condition parse, ← parse .statement]

end CreatorMigration.Grammar
