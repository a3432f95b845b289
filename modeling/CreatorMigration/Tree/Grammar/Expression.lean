import CreatorMigration.Tree.Grammar.Types

/-! # Expressions in the grammar

* Operands are parsed first, one by one with the operators between them; `assemble` then nests them
  by the levels of the operators.
* An arrow function is told from a parenthesized expression by the token behind the closing bracket.
-/

namespace CreatorMigration.Grammar

/-! ## Templates, arrays and objects -/

def templatePart (parse : Parse) : Parser Shape :=
  ofKind .templateText .stringFragment <|> ofKind .templateEscape .escapeSequence <|> do
    let opening ← ofKind .holeOpen .token
    let inner ← parse .sequence
    return group .templateSubstitution [opening, inner, ← ofKind .holeClose .token]

def template (parse : Parse) : Parser Shape := do
  let opening ← ofKind .templateOpen .token
  let parts ← manyUntil (templatePart parse) (ofKind .templateClose .token)
  return group .templateString (opening :: parts)

def spreadElement (parse : Parse) : Parser Shape := do
  return group .spreadElement [← mark "...", ← parse (.expression false)]

def arrayLiteral (parse : Parse) : Parser Shape := do
  return group .array
    (← bracketed "[" "]" (single (spreadElement parse <|> parse (.expression false))))

/-- A function as a member, behind its decorators. -/
def methodDefinition (parse : Parse) (modifierWords : List String) : Parser Shape := do
  let modifiers ← many (modifierOf modifierWords)
  let star ← optionally (single (mark "*"))
  let name := (← memberName parse).withRole .name
  let question ← optionally (single (mark "?"))
  let head ← signature parse
  return group .methodDefinition (modifiers ++ star ++ name :: question ++ head ++ [← body parse])

def objectMember (parse : Parse) : Parser Shape := do
  if ← atMark "..." then spreadElement parse
  else if (← atMarkAfter 1 ",") || (← atMarkAfter 1 "\x7d") then
    anyWord .shorthandPropertyIdentifier
  else
    (do
      let key ← memberName parse
      let colon ← mark ":"
      let value ← parse (.expression false)
      return group .pair [key.withRole .key, colon, value.withRole .value]) <|>
    methodDefinition parse ["async", "get", "set"] <|>
    (do
      let target ← anyWord .shorthandPropertyIdentifierPattern
      return group .objectAssignmentPattern [target, ← mark "=", ← parse (.expression false)])

def objectLiteral (parse : Parse) : Parser Shape := do
  return group .object (← bracketed "\x7b" "\x7d" (single (objectMember parse)))

/-! ## Functions -/

def functionHead (parse : Parse) (name : Parser (List Shape)) : Parser (Bool × List Shape) := do
  let async ← optionally (single (word "async"))
  let keyword ← guarded (async.isEmpty || !(← onNewLine)) (word "function")
  let star ← optionally (single (mark "*"))
  let called ← name
  let head ← signature parse
  return (!star.isEmpty, async ++ keyword :: star ++ called ++ head)

def functionExpression (parse : Parse) : Parser Shape := do
  let (generates, head) ← functionHead parse
    (optionally (do return [(← identifier).withRole .name]))
  return group (if generates then .generatorFunction else .functionExpression)
    (head ++ [← body parse])

def arrowBody (parse : Parse) (beforeColon : Bool) : Parser Shape := do
  if ← atMark "\x7b" then body parse
  else return (← parse (.expression beforeColon)).withRole .body

/-- The parameters of an arrow function with all that may stand around them. -/
def arrowHead (parse : Parse) (beforeColon : Bool) (depth : Nat) : Parser (List Shape) := do
  if ← atMarkAfter depth "(" then
    let behind ← behindBrackets depth
    if behind.any (·.isPunctuation "=>") then single (parameters parse)
    else guarded (!beforeColon && behind.any (·.isPunctuation ":")) (signature parse)
  else if ← atMarkAfter depth "<" then signature parse
  else
    let name ← identifier
    guarded (← atMark "=>") (pure [name.withRole .parameter])

def isAsyncArrow : Parser Bool := do
  return (← atWord "async") && !(← check (·.lineBreak) 1) && !(← atMarkAfter 1 "=>")

def arrowFunction (parse : Parse) (beforeColon : Bool) : Parser Shape := do
  let async ← if ← isAsyncArrow then single (word "async") else pure []
  let head ← arrowHead parse beforeColon 0
  let arrow ← mark "=>"
  return group .arrowFunction (async ++ head ++ [arrow, ← arrowBody parse beforeColon])

/-- An arrow function in front of a colon, whose own return type is not that colon's type. -/
def typedArrowBeforeColon (parse : Parse) : Parser Shape := do
  let shape ← arrowFunction parse false
  guarded (← atMark ":") (pure shape)

/-! ## Primary expressions -/

def literalWords : List (String × Kind) :=
  [ ("this", .thisValue), ("super", .superValue), ("true", .trueValue), ("false", .falseValue),
    ("null", .nullValue), ("undefined", .undefinedValue) ]

def literalWord : Parser Shape := do
  match ← peek with
  | some token =>
      match (if token.kind == .word then literalWords.lookup token.text else none) with
      | some kind => anyWord kind
      | none => failure
  | none => failure

def importExpression : Parser Shape := do
  if ← atMarkAfter 1 "." then
    return group .metaProperty [← word "import", ← mark ".", ← anyWord .token]
  else takeIf (·.isWord "import") .importCallee none

def parenthesized (parse : Parse) : Parser Shape := do
  let opening ← mark "("
  let inner ← parse .sequence
  let ascription ← optionalAscription parse
  return group .parenthesizedExpression (opening :: inner :: ascription ++ [← mark ")"])

/-- Expressions that are complete without what follows them; classes are given by the caller. -/
def primary (parse : Parse) (classExpression : Parser Shape) : Parser Shape := do
  if ← atMark "(" then parenthesized parse
  else if ← atMark "[" then arrayLiteral parse
  else if ← atMark "\x7b" then objectLiteral parse
  else if ← atKind .templateOpen then template parse
  else if (← atWord "class") || (← atMark "@") then classExpression
  else if (← atWord "function") || ((← atWord "async") && (← atWordAfter 1 "function")) then
    functionExpression parse
  else if ← atWord "import" then importExpression
  else
    literalWord <|> identifier <|> ofKind .number .number <|> ofKind .string .string <|>
      ofKind .regex .regex <|> ofKind .privateName .privatePropertyIdentifier

/-! ## Accesses and calls -/

def memberStep (target : Shape) : Parser Shape := do
  let dot ← mark "." <|> takeIf (·.isPunctuation "?.") .optionalChain none
  let name ← propertyName
  return group .memberExpression [target.withRole .object, dot, name.withRole .property]

def subscriptStep (parse : Parse) (target : Shape) : Parser Shape := do
  let chain ← optionally (single (takeIf (·.isPunctuation "?.") .optionalChain none))
  let opening ← mark "["
  let index ← parse .sequence
  return group .subscriptExpression
    (target.withRole .object :: chain ++ [opening, index, ← mark "]"])

def templateArguments (parse : Parse) : Parser Shape := do
  return (← template parse).withRole .arguments

/-- A call, with or without type arguments, or a template behind its tag. -/
def callStep (parse : Parse) (target : Shape) : Parser Shape := do
  let chain ← optionally (single (mark "?."))
  let types ← optionally (single (typeArguments parse))
  let arguments ← callArguments parse <|> templateArguments parse
  return group .callExpression (target.withRole .callee :: chain ++ types ++ [arguments])

def nonNullStep (target : Shape) : Parser Shape := do
  guarded (!(← onNewLine)) (do return group .nonNullExpression [target, ← mark "!"])

/-- Type arguments that are not those of a call. -/
def instantiationStep (parse : Parse) (target : Shape) : Parser Shape := do
  let types ← typeArguments parse
  let ends ← check (fun token =>
    token.lineBreak || token.kind == .finish || token.kind == .holeClose ||
      ([")", "]", "\x7d", ",", ";", ":"].any token.isPunctuation)) 0
  guarded ends (pure (group .instantiationExpression [target, types]))

def accessStep (parse : Parse) (target : Shape) : Parser (Option Shape) :=
  (some <$> (memberStep target <|> subscriptStep parse target <|> nonNullStep target)) <|> pure none

def callOrAccessStep (parse : Parse) (target : Shape) : Parser (Option Shape) :=
  (some <$> (callStep parse target <|> memberStep target <|> subscriptStep parse target <|>
    nonNullStep target <|> instantiationStep parse target)) <|> pure none

/-- The class made by `new` is reached without calls. -/
def newExpression (parse : Parse) (primary : Parser Shape) : Parser Shape := do
  let keyword ← word "new"
  if ← atMark "." then
    return group .metaProperty [keyword, ← mark ".", ← anyWord .token]
  else
    let start ← if ← atWord "new" then parse .callee else primary
    let constructed ← extend (accessStep parse) start
    let types ← optionally (single (typeArguments parse))
    let arguments ← optionally (single (callArguments parse))
    return group .newExpression
      (keyword :: constructed.withRole .constructed :: types ++ arguments)

def callee (parse : Parse) (classExpression : Parser Shape) : Parser Shape := do
  let simple := primary parse classExpression
  let start ← if ← atWord "new" then newExpression parse simple else simple
  extend (callOrAccessStep parse) start

/-! ## Operators -/

/-- How an operator joins its operands. -/
structure Operator where
  level : Nat
  /-- Whether operators of one level nest to the right. -/
  rightward : Bool
  kind : Kind
  signs : List Shape

def Operator.apply (operator : Operator) (left right : Shape) : Shape :=
  group operator.kind (left :: operator.signs ++ [right])

/-- Applies the operators on the stack that bind at least as tightly as the given level. -/
def settle (level : Nat) : List (Shape × Operator) → Shape → List (Shape × Operator) × Shape
  | (left, operator) :: below, right =>
      if level < operator.level ∨ (level = operator.level ∧ !operator.rightward) then
        settle level below (operator.apply left right)
      else ((left, operator) :: below, right)
  | [], right => ([], right)

def assemble : List (Shape × Operator) → Shape → List (Operator × Shape) → Shape
  | stack, current, [] => (settle 0 stack current).2
  | stack, current, (operator, operand) :: rest =>
      let (stack, left) := settle operator.level stack current
      assemble ((left, operator) :: stack) operand rest

def operatorLevels : List (String × Nat) :=
  [ ("??", 1), ("||", 2), ("&&", 3), ("|", 4), ("^", 5), ("&", 6),
    ("==", 7), ("!=", 7), ("===", 7), ("!==", 7), ("<", 8), ("<=", 8),
    ("<<", 9), ("+", 10), ("-", 10), ("*", 11), ("/", 11), ("%", 11), ("**", 12) ]

/-- The signs of an operator that starts with `>`: `>`, `>=`, `>>` or `>>>`, but no assignment. -/
def greaterSigns : List Token → Option (Nat × Nat)
  | first :: second :: third :: fourth :: _ =>
      let joined (left right : Token) := left.span.stop == right.span.start
      let isGreater (token : Token) := token.isPunctuation ">"
      let isAssigning (token : Token) := token.isPunctuation "=" || token.isPunctuation "=="
      if joined first second && isGreater second then
        if joined second third && isGreater third then
          if joined third fourth && isAssigning fourth then none
          else some (3, 9)
        else if joined second third && third.isPunctuation "=" then none
        else some (2, 9)
      else if joined first second && second.isPunctuation "=" then some (2, 8)
      else some (1, 8)
  | _ => some (1, 8)

def takeMarks : Nat → Parser (List Shape)
  | 0 => pure []
  | count + 1 => do
      let first ← takeIf (·.kind == .punctuation) .token none
      return first :: (← takeMarks count)

def greaterOperator : Parser Operator := fun tokens =>
  match tokens with
  | first :: _ =>
      if first.isPunctuation ">" then
        match greaterSigns tokens with
        | some (count, level) =>
            (takeMarks count tokens).map fun (signs, rest) =>
              (⟨level, false, .binaryExpression, signs⟩, rest)
        | none => none
      else none
  | [] => none

def binaryOperator : Parser Operator := do
  match ← peek with
  | some token =>
      if token.kind == .punctuation then
        match operatorLevels.lookup token.text with
        | some level =>
            return ⟨level, token.text == "**", .binaryExpression, [← mark token.text]⟩
        | none => greaterOperator
      else
        return ⟨8, false, .binaryExpression, [← oneOfWords ["in", "instanceof"]]⟩
  | none => failure

/-- An operator with its right operand, which is a type behind `as` and `satisfies`. -/
def operation (parse : Parse) : Parser (Operator × Shape) := do
  if ((← atWord "as") || (← atWord "satisfies")) && !(← onNewLine) then
    let kind ← if ← atWord "as" then pure Kind.asExpression else pure Kind.satisfiesExpression
    let keyword ← oneOfWords ["as", "satisfies"]
    let target ← if ← atWord "const" then word "const" else parse .type
    return (⟨8, false, kind, [keyword]⟩, target)
  else
    let operator ← binaryOperator
    return (operator, ← parse .operand)

def prefixSigns : List String := ["!", "~", "-", "+"]

def operand (parse : Parse) (classExpression : Parser Shape) : Parser Shape := do
  match ← peek with
  | none => failure
  | some token =>
      if token.kind == .punctuation && prefixSigns.contains token.text then
        return group .unaryExpression [← mark token.text, ← parse .operand]
      else if ["typeof", "void", "delete"].any token.isWord then
        return group .unaryExpression [← word token.text, ← parse .operand]
      else if ["++", "--"].any token.isPunctuation then
        return group .updateExpression [← mark token.text, ← parse .operand]
      else if token.isWord "await" then
        return group .awaitExpression [← word "await", ← parse .operand]
      else if token.isPunctuation "<" then
        return group .typeAssertion [← typeArguments parse, ← parse .operand]
      else
        let target ← callee parse classExpression
        if ((← atMark "++") || (← atMark "--")) && !(← onNewLine) then
          return group .updateExpression [target, ← mark "++" <|> mark "--"]
        else return target

/-- The first operand with all operators and operands behind it. -/
def operationsOn (parse : Parse) (first : Shape) : Parser Shape := do
  return assemble [] first (← many (operation parse))

/-! ## Whole expressions -/

def augmentedSigns : List String :=
  [ "+=", "-=", "*=", "/=", "%=", "**=", "<<=", "&=", "|=", "^=", "&&=", "||=", "??=" ]

/-- `>>=` and `>>>=`, which are several tokens. -/
def shiftAssignment : Parser (List Shape) := do
  let signs ← many (mark ">")
  guarded (2 ≤ signs.length) (do return signs ++ [← mark "="])

def assignmentSigns : Parser (Kind × List Shape) :=
  (do return (.assignmentExpression, [← mark "="])) <|>
  (do
    let sign ← takeIf (fun token =>
      token.kind == .punctuation && augmentedSigns.contains token.text) .token none
    return (.augmentedAssignmentExpression, [sign])) <|>
  (do return (.augmentedAssignmentExpression, ← shiftAssignment))

def ternary (parse : Parse) (beforeColon : Bool) (condition : Shape) : Parser Shape := do
  let question ← mark "?"
  let consequence ← parse (.expression true)
  let colon ← mark ":"
  return group .ternaryExpression
    [condition, question, consequence, colon, ← parse (.expression beforeColon)]

def yieldExpression (parse : Parse) : Parser Shape := do
  let keyword ← word "yield"
  let star ← optionally (single (mark "*"))
  if (← onNewLine) || (← check (fun token =>
      token.kind == .finish || token.kind == .holeClose ||
        [")", "]", "\x7d", ",", ";", ":"].any token.isPunctuation) 0) then
    return group .yieldExpression (keyword :: star)
  else return group .yieldExpression (keyword :: star ++ [← parse (.expression false)])

/-- An array or object in front of `=` is a pattern. -/
def destructuring (parse : Parse) (beforeColon : Bool) : Parser Shape := do
  guarded ((← atMark "\x7b") || (← atMark "[")) do
    guarded ((← behindBrackets 0).any (·.isPunctuation "=")) do
      let target ← pattern parse
      let sign ← mark "="
      return group .assignmentExpression [target, sign, ← parse (.expression beforeColon)]

/-- An expression whose first operand has been read. -/
def expressionFrom (parse : Parse) (beforeColon : Bool) (first : Shape) : Parser Shape := do
  let left ← operationsOn parse first
  if ← atMark "?" then ternary parse beforeColon left
  else
    (do
      let (kind, signs) ← assignmentSigns
      return group kind (left :: signs ++ [← parse (.expression beforeColon)])) <|> pure left

def arrowExpression (parse : Parse) (beforeColon : Bool) : Parser Shape := do
  let arrow ← (if beforeColon then typedArrowBeforeColon parse else failure) <|>
    arrowFunction parse beforeColon
  expressionFrom parse beforeColon (← extend (callOrAccessStep parse) arrow)

def expression (parse : Parse) (beforeColon : Bool) : Parser Shape := do
  if ← atWord "yield" then yieldExpression parse
  else
    arrowExpression parse beforeColon <|> destructuring parse beforeColon <|> do
      expressionFrom parse beforeColon (← parse .operand)

def sequence (parse : Parse) : Parser Shape := do
  let parts ← commaSeparated (parse (.expression false))
  match parts with
  | [only] => return only
  | several => return group .sequenceExpression several

end CreatorMigration.Grammar
