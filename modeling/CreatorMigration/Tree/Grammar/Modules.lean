import CreatorMigration.Tree.Grammar.Statements

/-! # Imports and exports in the grammar -/

namespace CreatorMigration.Grammar

/-! ## Imports -/

def fromClause : Parser (List Shape) := do
  return [← word "from", (← ofKind .string .string).withRole .source]

def importAttribute (parse : Parse) : Parser (List Shape) :=
  optionally do
    let keyword ← oneOfWords ["with", "assert"]
    return [group .importAttribute [keyword, ← parse (.expression false)]]

/-- Whether the word is `type` or `typeof` in front of a specifier rather than a name. -/
def atSpecifierModifier : Parser Bool := do
  let modifies ← check (fun token => token.isWord "type" || token.isWord "typeof") 0
  let named ← check (fun token => token.kind == .word && token.text != "as") 1
  let renamed := (← atWordAfter 1 "as") && (← atWordAfter 2 "as")
  return modifies && (named || renamed)

def importOrExportSpecifier (kind : Kind) : Parser Shape := do
  let modifier ← if ← atSpecifierModifier then single (oneOfWords ["type", "typeof"]) else pure []
  let name := (← moduleName).withRole .name
  let renamed ← optionally do return [← word "as", (← moduleName).withRole .otherName]
  return group kind (modifier ++ name :: renamed)

def namedImports : Parser Shape := do
  return group .namedImports
    (← bracketed "\x7b" "\x7d" (single (importOrExportSpecifier .importSpecifier)))

def namespaceImport : Parser Shape := do
  return group .namespaceImport [← mark "*", ← word "as", ← identifier]

def importClause : Parser Shape := do
  let lists := namespaceImport <|> namedImports
  let parts ←
    single lists <|> do
      let name ← identifier
      let others ← optionally do return [← mark ",", ← lists]
      return name :: others
  return group .importClause parts

/-- `type` in front of what is imported, unless it is the name of the default import. -/
def importModifier : Parser (List Shape) := do
  let lists ← check (fun token => token.isPunctuation "\x7b" || token.isPunctuation "*") 1
  let named ← check (fun token => token.kind == .word && token.text != "from") 1
  let fromTwice := (← atWordAfter 1 "from") && (← atWordAfter 2 "from")
  if lists || named || fromTwice then
    optionally (single (oneOfWords ["type", "typeof"]))
  else pure []

/-- `x = require('y')`, whose source is not that of the statement. -/
def importRequire : Parser (List Shape) := do
  let name ← identifier
  let sign ← mark "="
  let required := [← word "require", ← mark "(", (← ofKind .string .string).withRole .source,
    ← mark ")"]
  return [group .importRequireClause (name :: sign :: required)]

def importStatement (parse : Parse) : Parser Shape := do
  let keyword ← word "import"
  let modifier ← importModifier
  let subject ←
    (do return (← importClause) :: (← fromClause)) <|> importRequire <|>
    (do return [(← ofKind .string .string).withRole .source])
  let options ← importAttribute parse
  return group .importStatement (keyword :: modifier ++ subject ++ options ++ (← semicolon))

/-- `import A = B.C` -/
def importAlias : Parser Shape := do
  let keyword ← word "import"
  let name ← identifier
  let sign ← mark "="
  let target ← dottedModuleName
  return group .importAlias (keyword :: name :: sign :: target :: (← semicolon))

/-! ## Exports -/

def exportClause : Parser Shape := do
  return group .exportClause
    (← bracketed "\x7b" "\x7d" (single (importOrExportSpecifier .exportSpecifier)))

/-- `export * from`, `export * as x from` and `export { a } from` -/
def exportList : Parser (List Shape) := do
  let modifier ← optionally (single (word "type"))
  let list ←
    (do
      let all ← single exportClause
      return all ++ (← optionally fromClause)) <|>
    (do
      let star ← mark "*"
      let all ←
        if ← atWord "as" then pure [group .namespaceExport [star, ← word "as", ← moduleName]]
        else pure [star]
      return all ++ (← fromClause))
  return modifier ++ list ++ (← semicolon)

def defaultExport (parse : Parse) : Parser (List Shape) := do
  let keyword ← word "default"
  let value ←
    (do
      let declared ← functionDeclaration parse <|>
        (do classDeclaration parse (← many (decorator parse))) <|> interfaceDeclaration parse
      return [declared.withRole .declaration]) <|>
    (do
      let value := (← parse (.expression false)).withRole .value
      return value :: (← semicolon))
  return keyword :: value

def exportStatement (parse : Parse) : Parser Shape := do
  let decorators ← many (decorator parse)
  let keyword ← word "export"
  let rest ←
    exportList <|> defaultExport parse <|> single importAlias <|>
    (do
      let sign ← mark "="
      let value ← parse (.expression false)
      return sign :: value :: (← semicolon)) <|>
    (do
      let words := [← word "as", ← word "namespace", ← identifier]
      return words ++ (← semicolon)) <|>
    (do return [(← declaration parse).withRole .declaration])
  return group .exportStatement (decorators ++ keyword :: rest)

/-! ## All statements -/

/-- The name space of a statement is an expression, which may end without a semicolon. -/
def namespaceStatement (parse : Parse) : Parser Shape := do
  guarded (← atWord "namespace") do
    let inner ← moduleDeclaration parse
    return group .expressionStatement (inner :: (← semicolon))

/-- A statement by its first word; a word that is not reserved may also be a name. -/
def wordStatement (parse : Parse) : String → Parser Shape
  | "if" => ifStatement parse
  | "for" => forInStatement parse <|> forStatement parse
  | "while" => whileStatement parse
  | "do" => doStatement parse
  | "try" => tryStatement parse
  | "switch" => switchStatement parse
  | "break" => jump "break" .breakStatement
  | "continue" => jump "continue" .continueStatement
  | "return" => returnStatement parse
  | "throw" => throwStatement parse
  | "debugger" => debuggerStatement
  | "with" => withStatement parse
  | "export" => exportStatement parse
  | "import" => importStatement parse <|> importAlias <|> expressionStatement parse
  | text =>
      if ["function", "class", "const", "var", "enum"].contains text then declaration parse
      else if reservedWords.contains text then expressionStatement parse
      else
        labeledStatement parse <|> namespaceStatement parse <|> declaration parse <|>
          expressionStatement parse

def statement (parse : Parse) : Parser Shape := do
  match ← peek with
  | none => failure
  | some token =>
      if token.isPunctuation "\x7b" then block parse
      else if token.isPunctuation ";" then emptyStatement
      else if token.isPunctuation "@" then exportStatement parse <|> declaration parse
      else if token.kind == .word then wordStatement parse token.text
      else expressionStatement parse

end CreatorMigration.Grammar
