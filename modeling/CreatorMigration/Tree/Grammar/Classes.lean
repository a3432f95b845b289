import CreatorMigration.Tree.Grammar.Expression

/-! # Classes in the grammar

The decorators of a field belong to the field. Those of a method stand in front of it, as members of
their own in the body of the class.
-/

namespace CreatorMigration.Grammar

def memberModifiers : List String :=
  [ "declare", "public", "private", "protected", "static", "override", "abstract", "readonly",
    "accessor" ]

def methodModifiers : List String := ["async", "get", "set"]

def fieldEnd : Parser (List Shape) := single (mark ",") <|> semicolon

/-- A method behind its modifiers; without a body it is a signature. -/
def method (parse : Parse) (isAbstract : Bool) (front : List Shape) : Parser (List Shape) := do
  let head ← signature parse
  if ← atMark "\x7b" then return [group .methodDefinition (front ++ head ++ [← body parse])]
  else
    let kind := if isAbstract then Kind.abstractMethodSignature else Kind.methodSignature
    return group kind (front ++ head) :: (← fieldEnd)

def field (parse : Parse) (decorators front : List Shape) : Parser (List Shape) := do
  let ascription ← optionalAscription parse
  let value ← optionally (initializer parse)
  return group .publicFieldDefinition (decorators ++ front ++ ascription ++ value) ::
    (← fieldEnd)

def methodOrField (parse : Parse) : Parser (List Shape) := do
  let decorators ← many (decorator parse)
  let isAbstract := (← atWord "abstract") || (← atWordAfter 1 "abstract")
  let modifiers ← many (modifierOf (memberModifiers ++ methodModifiers))
  let star ← optionally (single (mark "*"))
  let name := (← memberName parse).withRole .name
  let suffix ← optionally (single (mark "?" <|> mark "!"))
  let front := modifiers ++ star ++ name :: suffix
  if (← atMark "(") || (← atMark "<") then
    return decorators ++ (← method parse isAbstract front)
  else field parse decorators front

def staticBlock (parse : Parse) : Parser (List Shape) := do
  guarded (← atMarkAfter 1 "\x7b") do
    return [group .classStaticBlock [← word "static", ← body parse]]

def classMember (parse : Parse) : Parser (List Shape) :=
  single (mark ";") <|> staticBlock parse <|>
  (do
    let index ← indexSignature parse
    return index :: (← fieldEnd)) <|>
  methodOrField parse

def classBody (parse : Parse) : Parser Shape := do
  let opening ← mark "\x7b"
  let members ← manyUntil (classMember parse) (single (mark "\x7d"))
  return (group .classBody (opening :: members.flatten)).withRole .body

/-! ## Heritage -/

def extendsClause (parse : Parse) : Parser (List Shape) := do
  let keyword ← word "extends"
  let value := (← parse .callee).withRole .value
  let arguments ← optionally (single (typeArguments parse))
  return [group .extendsClause (keyword :: value :: arguments)]

def implementsClause (parse : Parse) : Parser (List Shape) := do
  let keyword ← word "implements"
  return [group .implementsClause (keyword :: (← commaSeparated (parse .type)))]

def classHeritage (parse : Parse) : Parser (List Shape) := do
  let extended ← optionally (extendsClause parse)
  let implemented ← optionally (implementsClause parse)
  return if extended.isEmpty && implemented.isEmpty then []
    else [group .classHeritage (extended ++ implemented)]

/-- A class from its keyword on, with the name in the given kind. -/
def classFrom (parse : Parse) (name : Parser (List Shape)) : Parser (List Shape) := do
  let keyword ← word "class"
  let called ← name
  let types ← optionally (single (typeParameters parse))
  let heritage ← classHeritage parse
  return keyword :: called ++ types ++ heritage ++ [← classBody parse]

def className : Parser Shape := do
  guarded (!(← atWord "extends") && !(← atWord "implements")) (do
    return (← typeName).withRole .name)

def classExpression (parse : Parse) : Parser Shape := do
  let decorators ← many (decorator parse)
  return group .classExpression
    (decorators ++ (← classFrom parse (optionally (single className))))

/-- A class as a statement, behind its decorators. -/
def classDeclaration (parse : Parse) (decorators : List Shape) : Parser Shape := do
  if ← atWord "abstract" then
    let keyword ← word "abstract"
    return group .abstractClassDeclaration
      (decorators ++ keyword :: (← classFrom parse (single className)))
  else
    let parts ← classFrom parse (single className)
    return group .classDeclaration (decorators ++ parts ++ (← trailingSemicolon))

end CreatorMigration.Grammar
