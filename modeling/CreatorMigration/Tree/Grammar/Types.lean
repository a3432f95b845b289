import CreatorMigration.Tree.Grammar.Parameter

/-! # Types in the grammar

* Unions and intersections nest to the left: `A | B | C` is a union of the union `A | B` and `C`.
* A leading bar makes an innermost union of one member.
-/

namespace CreatorMigration.Grammar

/-! ## Names of types -/

/-- The names of modules in front of a type, as nested accesses. -/
def moduleAccess (first : Shape) : List (Shape × Shape) → Shape
  | [] => first
  | [(dot, name)] =>
      group .nestedIdentifier [first.withRole .object, dot, name.withRole .property]
  | (dot, name) :: rest =>
      moduleAccess (group .memberExpression [first.withRole .object, dot, name.withRole .property])
        rest

def namedType (parse : Parse) : Parser Shape := do
  let qualified ← atMarkAfter 1 "."
  let name ←
    if qualified then do
      let first ← identifier
      let dotted ← many do
        let dot ← mark "."
        guarded (← atMarkAfter 1 ".") (do return (dot, ← anyWord .propertyIdentifier))
      let dot ← mark "."
      let last ← anyWord .typeIdentifier
      pure (group .nestedTypeIdentifier [moduleAccess first dotted, dot, last.withRole .name])
    else typeName
  let arguments ← optionally (single (typeArguments parse))
  return if arguments.isEmpty then name else group .genericType (name.withRole .name :: arguments)

/-- `import('x').Y` -/
def importedType (parse : Parse) : Parser Shape := do
  let callee ← takeIf (·.isWord "import") .importCallee none
  let arguments ← callArguments parse
  let call := group .callExpression [callee.withRole .callee, arguments]
  let dotted ← many do return (← mark ".", ← anyWord .typeIdentifier)
  let name := dotted.foldl (fun target (dot, last) =>
    group .nestedTypeIdentifier [target, dot, last.withRole .name]) call
  let types ← optionally (single (typeArguments parse))
  return if types.isEmpty then name else group .genericType (name :: types)

/-- What `typeof` asks about: a value that is reached by names. -/
def queriedValue (parse : Parse) : Parser Shape := do
  let first ←
    if ← atWord "import" then importedType parse
    else takeIf (·.isWord "this") .thisValue none <|> identifier
  let dotted ← many do return (← mark ".", ← propertyName)
  let access := dotted.foldl (fun target (dot, name) =>
    group .memberExpression [target.withRole .object, dot, name.withRole .property]) first
  let types ← optionally (single (typeArguments parse))
  return if types.isEmpty then access else group .instantiationExpression (access :: types)

/-! ## Object types -/

/-- `readonly`, with or without a sign, in front of an index. -/
def indexModifiers : Parser (List Shape) :=
  optionally do
    let sign ← optionally (single (mark "+" <|> mark "-"))
    return sign ++ [← word "readonly"]

/-- `[key: string]: T` or `[K in T]: U` -/
def indexSignature (parse : Parse) : Parser Shape := do
  let modifiers ← indexModifiers
  let opening ← mark "["
  let inner ←
    if ← atWordAfter 1 "in" then do
      let name ← typeName
      let source := [← word "in", ← parse .type]
      let remapping ← optionally do return [← word "as", ← parse .type]
      pure [group .mappedTypeClause (name.withRole .name :: source ++ remapping)]
    else do
      let name ← identifier
      pure [name.withRole .name, ← mark ":", ← parse .type]
  let close ← mark "]"
  let sign ← optionally (single (mark "+" <|> mark "-"))
  let question ← optionally (single (mark "?"))
  let ascription ← optionalAscription parse
  return group .indexSignature
    (modifiers ++ opening :: inner ++ close :: sign ++ question ++ ascription)

def propertyModifiers : List String :=
  [ "public", "private", "protected", "static", "override", "readonly", "async", "get", "set" ]

def memberSignature (parse : Parse) : Parser Shape := do
  let modifiers ← many (modifierOf propertyModifiers)
  let name := (← memberName parse).withRole .name
  let question ← optionally (single (mark "?"))
  if (← atMark "(") || (← atMark "<") then
    return group .methodSignature (modifiers ++ name :: question ++ (← signature parse))
  else
    return group .propertySignature (modifiers ++ name :: question ++ (← optionalAscription parse))

def objectTypeMember (parse : Parse) : Parser Shape :=
  indexSignature parse <|>
  (do
    if (← atMark "(") || (← atMark "<") then
      return group .callSignature (← signature parse)
    else failure) <|>
  (do
    let construction ← word "new"
    return group .constructSignature (construction :: (← signature parse))) <|>
  memberSignature parse

/-- The members between braces, each with the separator behind it. -/
def objectTypeAs (kind : Kind) (parse : Parse) : Parser Shape := do
  let opening ← mark "\x7b"
  let members ← manyUntil
    (do
      let member ← objectTypeMember parse
      return member :: (← single (mark ",") <|> semicolon))
    (single (mark "\x7d"))
  return group kind (opening :: members.flatten)

/-! ## Primary types -/

def predefinedNames : List String :=
  [ "any", "number", "boolean", "string", "symbol", "void", "unknown", "never", "object" ]

def constantType : Parser Shape := do
  let constant ←
    ofKind .string .string <|> ofKind .number .number <|>
    takeIf (·.isWord "true") .trueValue none <|> takeIf (·.isWord "false") .falseValue none <|>
    takeIf (·.isWord "null") .nullValue none <|>
    takeIf (·.isWord "undefined") .undefinedValue none <|> do
      return group .unaryExpression [← mark "-", ← ofKind .number .number]
  return group .literalType [constant]

def tupleMember (parse : Parse) : Parser Shape :=
  (do
    let name ← identifier
    let question ← optionally (single (mark "?"))
    let ascription := (← typeAscription parse).withRole .type
    return group (if question.isEmpty then .requiredParameter else .optionalParameter)
      (name.withRole .name :: question ++ [ascription])) <|>
  (do
    let dots ← mark "..."
    if ← atMarkAfter 1 ":" then
      let name ← identifier
      let ascription := (← typeAscription parse).withRole .type
      return group .requiredParameter
        [(group .restPattern [dots, name]).withRole .name, ascription]
    else return group .restType [dots, ← parse .type]) <|>
  (do
    let member ← parse .type
    if ← atMark "?" then return group .optionalType [member, ← mark "?"] else return member)

def templateTypePart (parse : Parse) : Parser Shape :=
  ofKind .templateText .stringFragment <|> ofKind .templateEscape .escapeSequence <|> do
    let opening ← ofKind .holeOpen .token
    let inner ← parse .type
    return group .templateType [opening, inner, ← ofKind .holeClose .token]

def templateLiteral (parse : Parse) : Parser Shape := do
  let opening ← ofKind .templateOpen .token
  let parts ← manyUntil (templateTypePart parse) (ofKind .templateClose .token)
  return group .templateLiteralType (opening :: parts)

def primaryType (parse : Parse) : Parser Shape := do
  if ← atMark "(" then
    return group .parenthesizedType [← mark "(", ← parse .type, ← mark ")"]
  else if ← atMark "\x7b" then objectTypeAs .objectType parse
  else if ← atMark "[" then
    return group .tupleType (← bracketed "[" "]" (single (tupleMember parse)))
  else if ← atKind .templateOpen then templateLiteral parse
  else if ← atWord "this" then takeIf (·.isWord "this") .thisType none
  else if ← atWord "typeof" then return group .typeQuery [← word "typeof", ← queriedValue parse]
  else if ← atWord "import" then importedType parse
  else
    constantType <|> namedType parse <|> takeIf (·.isWord "void") .predefinedType none

/-- A predefined name is no reference, unless it is qualified. -/
def predefinedType : Parser Shape := do
  guarded (!(← atMarkAfter 1 "."))
    (takeIf (fun token => token.kind == .word && predefinedNames.contains token.text)
      .predefinedType none)

/-! ## Operators on types -/

/-- `T[]` and `T[K]`, on the line of `T`. -/
def indexStep (parse : Parse) (target : Shape) : Parser (Option Shape) := do
  if (← atMark "[") && !(← onNewLine) then
    let opening ← mark "["
    if ← atMark "]" then
      return some (group .arrayType [target, opening, ← mark "]"])
    else
      let key ← parse .type
      return some (group .lookupType [target, opening, key, ← mark "]"])
  else return none

/-- Whether a type follows the word, so that the word is an operator on types. -/
def isTypeOperator : Parser Bool :=
  check (fun token =>
    token.kind == .word && token.text != "extends" && token.text != "is" ||
      token.kind == .string || token.kind == .number || token.kind == .templateOpen ||
      token.isPunctuation "(" || token.isPunctuation "\x7b" || token.isPunctuation "[") 1

def typeOperand (parse : Parse) : Parser Shape := do
  let operator ← isTypeOperator
  if operator && (← atWord "keyof") then
    return group .indexTypeQuery [← word "keyof", ← parse .typeOperand]
  else if operator && (← atWord "readonly") then
    return group .readonlyType [← word "readonly", ← parse .typeOperand]
  else if operator && (← atWord "unique") then
    return group .predefinedType [← word "unique", ← word "symbol"]
  else if operator && (← atWord "infer") then
    let opening := [← word "infer", ← typeName]
    let bound ← optionally (do return [← word "extends", ← parse .type])
    return group .inferType (opening ++ bound)
  else extend (indexStep parse) (← predefinedType <|> primaryType parse)

/-- `(a: T) => U`, `<T>(a: T) => U` and `new () => T` -/
def functionType? (parse : Parse) : Parser (Option Shape) := do
  let abstractNew := (← atWord "abstract") && (← atWordAfter 1 "new")
  if abstractNew || (← atWord "new") then
    let words ← many (oneOfWords ["abstract", "new"])
    return some (group .constructorType (words ++ (← arrowSignature)))
  else if ← atMark "<" then return some (group .functionType (← arrowSignature))
  else if (← atMark "(") && (← behindBrackets 0).any (·.isPunctuation "=>") then
    return some (group .functionType (← arrowSignature))
  else return none
where
  arrowSignature : Parser (List Shape) := do
    let types ← optionally (single (typeParameters parse))
    let list ← parameters parse
    let arrow ← mark "=>"
    let result ←
      (do return group .assertsAscription (← assertion parse)) <|> typePredicate parse <|>
        parse .type
    return types ++ [list, arrow, result]

def typeTerm (parse : Parse) : Parser Shape := do
  match ← functionType? parse with
  | some shape => return shape
  | none => typeOperand parse

/-- Operands between `sign`s, nested to the left, behind an optional leading `sign`. -/
def chainOfTypes (sign : String) (kind : Kind) (operand : Parser Shape) : Parser Shape := do
  let leading ← optionally (single (mark sign))
  let first ← operand
  let start := if leading.isEmpty then first else group kind (leading ++ [first])
  extend (fun left => do
    if ← atMark sign then return some (group kind [left, ← mark sign, ← operand])
    else return none) start

def unionOfTypes (parse : Parse) : Parser Shape :=
  chainOfTypes "|" .unionType (chainOfTypes "&" .intersectionType (typeTerm parse))

def type (parse : Parse) : Parser Shape := do
  let subject ← unionOfTypes parse
  if (← atWord "extends") && !(← onNewLine) then
    (do
      let keyword ← word "extends"
      let bound ← unionOfTypes parse
      let question ← mark "?"
      let consequence ← parse .type
      let colon ← mark ":"
      return group .conditionalType
        [subject, keyword, bound, question, consequence, colon, ← parse .type]) <|> pure subject
  else return subject

end CreatorMigration.Grammar
