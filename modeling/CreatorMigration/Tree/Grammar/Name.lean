import CreatorMigration.Tree.Grammar.Basic

/-! # Names in the grammar

What may stand for a name depends on its place: a variable may not be called like a keyword, the
member of an object may.
-/

namespace CreatorMigration.Grammar

/-- The words that never name a variable. -/
def reservedWords : List String :=
  [ "break", "case", "catch", "class", "const", "continue", "debugger", "default", "delete", "do",
    "else", "enum", "export", "extends", "false", "finally", "for", "function", "if", "import",
    "in", "instanceof", "new", "null", "return", "super", "switch", "this", "throw", "true", "try",
    "typeof", "var", "void", "while", "with" ]

def isFreeName (token : Token) : Bool :=
  token.kind == .word && !reservedWords.contains token.text

def atName : Parser Bool := check isFreeName 0

/-- A variable, or another symbol that goes by an `identifier`. -/
def identifier : Parser Shape := takeIf isFreeName .identifier none

def typeName : Parser Shape := takeIf isFreeName .typeIdentifier none

/-- Any word in the place of a name, keywords included. -/
def anyWord (kind : Kind) : Parser Shape := ofKind .word kind

/-- A name in a list of imports or exports, where keywords and texts are allowed. -/
def moduleName : Parser Shape := anyWord .identifier <|> ofKind .string .string

/-! ## Members -/

/-- Whether a token can start the name of a member. -/
def startsMemberName (token : Token) : Bool :=
  token.kind == .word || token.kind == .string || token.kind == .number ||
    token.kind == .privateName || token.isPunctuation "["

/-- A name behind a dot. -/
def propertyName : Parser Shape :=
  anyWord .propertyIdentifier <|> ofKind .privateName .privatePropertyIdentifier

/-- The name of a member of a class, an object, an enum or an object type. -/
def memberName (parse : Parse) : Parser Shape :=
  propertyName <|> ofKind .string .string <|> ofKind .number .number <|> do
    let opening ← mark "["
    let expression ← parse (.expression false)
    return group .computedPropertyName [opening, expression, ← mark "]"]

/-- A word in front of a member name that says something about the member. -/
def modifierOf (words : List String) : Parser Shape := do
  guarded (← check (fun token => startsMemberName token || token.isPunctuation "*") 1)
    (modifierShape =<< peek)
where
  modifierShape (token : Option Token) : Parser Shape :=
    match token with
    | some found =>
        if ["public", "private", "protected"].contains found.text then do
          return group .accessibilityModifier [← oneOfWords words]
        else if found.text = "override" then do
          return group .overrideModifier [← oneOfWords words]
        else oneOfWords words
    | none => failure

end CreatorMigration.Grammar
