import CreatorMigration.Tree.Grammar.Name

/-! # Parameters and patterns

What binds names: parameter lists, type parameters and destructuring patterns, with the annotations
that go with them.
-/

namespace CreatorMigration.Grammar

/-! ## Types behind a colon -/

def typeAscription (parse : Parse) : Parser Shape := do
  return group .typeAscription [← mark ":", ← parse .type]

def optionalAscription (parse : Parse) : Parser (List Shape) :=
  optionally (do return [(← typeAscription parse).withRole .type])

/-- `x is T` -/
def typePredicate (parse : Parse) : Parser Shape := do
  let subject ← identifier <|> takeIf (·.isWord "this") .thisType none
  let isWord ← guarded (!(← onNewLine)) (word "is")
  return group .typePredicate [subject, isWord, ← parse .type]

/-- `asserts x` or `asserts x is T` -/
def assertion (parse : Parse) : Parser (List Shape) := do
  let asserts ← word "asserts"
  guarded (!(← onNewLine)) do
    let claim ← typePredicate parse <|> identifier <|> takeIf (·.isWord "this") .thisType none
    return [asserts, claim]

def returnAscription (parse : Parse) : Parser Shape := do
  let colon ← mark ":"
  (do return group .assertsAscription (colon :: (← assertion parse))) <|>
    (do return group .typePredicateAscription [colon, ← typePredicate parse]) <|>
    (do return group .typeAscription [colon, ← parse .type])

/-! ## Type parameters and arguments -/

def typeParameter (parse : Parse) : Parser Shape := do
  let modifiers ← many do
    guarded (← check (·.kind == .word) 1) (oneOfWords ["const", "in", "out"])
  let name ← typeName
  let bound ← optionally do
    return [group .constraint [← word "extends", ← parse .type]]
  let default ← optionally do
    return [group .defaultType [← mark "=", ← parse .type]]
  return group .typeParameter (modifiers ++ name.withRole .name :: bound ++ default)

def typeParameters (parse : Parse) : Parser Shape := do
  return group .typeParameters (← bracketed "<" ">" (single (typeParameter parse)))

def typeArguments (parse : Parse) : Parser Shape := do
  return (group .typeArguments (← bracketed "<" ">" (single (parse .type)))).withRole .typeArguments

/-! ## Patterns -/

def initializer (parse : Parse) : Parser (List Shape) := do
  return [← mark "=", (← parse (.expression false)).withRole .value]

/-- A pattern with the value it takes when there is none. -/
def withDefault (parse : Parse) (target : Shape) : Parser Shape := do
  if ← atMark "=" then
    return group .assignmentPattern [target, ← mark "=", ← parse (.expression false)]
  else return target

def restPattern (parse : Parse) : Parser Shape := do
  return group .restPattern [← mark "...", ← parse .pattern]

def propertyPattern (parse : Parse) : Parser Shape :=
  (do
    let key ← memberName parse
    let colon ← mark ":"
    let target ← withDefault parse (← parse .pattern)
    return group .pairPattern [key.withRole .key, colon, target.withRole .value]) <|>
  (do
    let target ← anyWord .shorthandPropertyIdentifierPattern
    if ← atMark "=" then
      return group .objectAssignmentPattern [target, ← mark "=", ← parse (.expression false)]
    else return target)

def objectPattern (parse : Parse) : Parser Shape := do
  return group .objectPattern
    (← bracketed "\x7b" "\x7d" (single (restPattern parse <|> propertyPattern parse)))

def arrayPattern (parse : Parse) : Parser Shape := do
  return group .arrayPattern
    (← bracketed "[" "]" (single (restPattern parse <|> do withDefault parse (← parse .pattern))))

/-- What can be assigned to. -/
def pattern (parse : Parse) : Parser Shape := do
  if ← atMark "\x7b" then objectPattern parse
  else if ← atMark "[" then arrayPattern parse
  else if ← atMark "..." then restPattern parse
  else parse .callee

/-- What can be declared. -/
def bindingPattern (parse : Parse) : Parser Shape := do
  if ← atMark "\x7b" then objectPattern parse
  else if ← atMark "[" then arrayPattern parse
  else identifier

/-! ## Decorators -/

/-- The arguments of a call. -/
def callArguments (parse : Parse) : Parser Shape := do
  let item : Parser Shape := do
    if ← atMark "..." then
      return group .spreadElement [← mark "...", ← parse (.expression false)]
    else parse (.expression false)
  return (group .arguments (← bracketed "(" ")" (single item))).withRole .arguments

def dottedName (parse : Parse) : Parser Shape := do
  let first ← identifier
  let dotted ← many do return (← mark ".", ← propertyName)
  let access := dotted.foldl
    (fun target (dot, name) =>
      group .memberExpression [target.withRole .object, dot, name.withRole .property]) first
  let types ← optionally (single (typeArguments parse))
  if ← atMark "(" then
    return group .callExpression (access.withRole .callee :: types ++ [← callArguments parse])
  else guarded types.isEmpty (pure access)

def decorator (parse : Parse) : Parser Shape := do
  let sign ← mark "@"
  let target ← dottedName parse <|> do
    return group .parenthesizedExpression [← mark "(", ← parse .sequence, ← mark ")"]
  return (group .decorator [sign, target]).withRole .decorator

/-! ## Parameters -/

/-- A word in front of a parameter that makes it a field of its class. -/
def parameterModifier : Parser Shape := do
  guarded (← check (fun token =>
      token.kind == .word || token.isPunctuation "\x7b" || token.isPunctuation "[") 1)
    (modifierOf.modifierShape ["public", "private", "protected", "override", "readonly"] =<< peek)

def parameterPattern (parse : Parse) : Parser Shape := do
  if ← atMark "..." then
    return group .restPattern [← mark "...", ← bindingPattern parse]
  else if ← atWord "this" then takeIf (·.isWord "this") .thisValue none
  else bindingPattern parse

def parameter (parse : Parse) : Parser Shape := do
  let decorators ← many (decorator parse)
  let modifiers ← many parameterModifier
  let target := (← parameterPattern parse).withRole .pattern
  let question ← optionally (single (mark "?"))
  let ascription ← optionalAscription parse
  let value ← optionally (initializer parse)
  return group (if question.isEmpty then .requiredParameter else .optionalParameter)
    (decorators ++ modifiers ++ target :: question ++ ascription ++ value)

def parameters (parse : Parse) : Parser Shape := do
  return (group .formalParameters (← bracketed "(" ")" (single (parameter parse)))).withRole
    .parameters

/-- Type parameters, parameters and the type of the result. -/
def signature (parse : Parse) : Parser (List Shape) := do
  let types ← optionally (single (typeParameters parse))
  let list ← parameters parse
  let result ← optionally (single (returnAscription parse))
  return types ++ list :: result

/-- The statements between braces. -/
def block (parse : Parse) : Parser Shape := do
  let opening ← mark "\x7b"
  let statements ← manyUntil (parse .statement) (mark "\x7d")
  return group .statementBlock (opening :: statements ++ (← trailingSemicolon))

def body (parse : Parse) : Parser Shape := do return (← block parse).withRole .body

end CreatorMigration.Grammar
