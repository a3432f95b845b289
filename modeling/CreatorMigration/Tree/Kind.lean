/-! # Kinds of nodes

The vocabulary of the tree of a TypeScript unit: what a node is (`Kind`) and what it is to its
parent (`Role`). Punctuation and keywords are nodes of the kind `token`; all other kinds are named.
-/

namespace CreatorMigration

inductive Kind where
  | token
  | program
  | hashBangLine
  | comment
  -- modules
  | importStatement
  | importClause
  | namedImports
  | namespaceImport
  | importSpecifier
  | importRequireClause
  | importAttribute
  | importAlias
  | exportStatement
  | exportClause
  | exportSpecifier
  | namespaceExport
  -- declarations
  | lexicalDeclaration
  | variableDeclaration
  | variableDeclarator
  | functionDeclaration
  | generatorFunctionDeclaration
  | functionSignature
  | classDeclaration
  | abstractClassDeclaration
  | interfaceDeclaration
  | enumDeclaration
  | enumBody
  | enumAssignment
  | typeAliasDeclaration
  | ambientDeclaration
  | internalModule
  | externalModule
  -- statements
  | expressionStatement
  | emptyStatement
  | statementBlock
  | ifStatement
  | elseClause
  | forStatement
  | forInStatement
  | whileStatement
  | doStatement
  | tryStatement
  | catchClause
  | finallyClause
  | switchStatement
  | switchBody
  | switchCase
  | switchDefault
  | breakStatement
  | continueStatement
  | returnStatement
  | throwStatement
  | labeledStatement
  | debuggerStatement
  | withStatement
  -- classes
  | classBody
  | classHeritage
  | extendsClause
  | implementsClause
  | extendsTypeClause
  | publicFieldDefinition
  | methodDefinition
  | methodSignature
  | abstractMethodSignature
  | classStaticBlock
  | decorator
  | accessibilityModifier
  | overrideModifier
  -- functions
  | formalParameters
  | requiredParameter
  | optionalParameter
  | arrowFunction
  | functionExpression
  | generatorFunction
  -- names
  | identifier
  | typeIdentifier
  | propertyIdentifier
  | privatePropertyIdentifier
  | statementIdentifier
  | shorthandPropertyIdentifier
  | shorthandPropertyIdentifierPattern
  | nestedIdentifier
  | nestedTypeIdentifier
  | computedPropertyName
  -- expressions
  | undefinedValue
  | thisValue
  | superValue
  | number
  | string
  | regex
  | templateString
  | templateSubstitution
  | stringFragment
  | escapeSequence
  | trueValue
  | falseValue
  | nullValue
  | importCallee
  | parenthesizedExpression
  | sequenceExpression
  | object
  | pair
  | spreadElement
  | array
  | classExpression
  | callExpression
  | newExpression
  | arguments
  | memberExpression
  | subscriptExpression
  | optionalChain
  | metaProperty
  | nonNullExpression
  | instantiationExpression
  | unaryExpression
  | updateExpression
  | awaitExpression
  | yieldExpression
  | binaryExpression
  | ternaryExpression
  | assignmentExpression
  | augmentedAssignmentExpression
  | asExpression
  | satisfiesExpression
  | typeAssertion
  -- patterns
  | objectPattern
  | arrayPattern
  | pairPattern
  | restPattern
  | assignmentPattern
  | objectAssignmentPattern
  -- types
  | typeAscription
  | typeArguments
  | typeParameters
  | typeParameter
  | constraint
  | defaultType
  | predefinedType
  | literalType
  | thisType
  | unionType
  | intersectionType
  | parenthesizedType
  | arrayType
  | tupleType
  | optionalType
  | restType
  | functionType
  | constructorType
  | genericType
  | objectType
  | interfaceBody
  | propertySignature
  | callSignature
  | constructSignature
  | indexSignature
  | mappedTypeClause
  | indexTypeQuery
  | typeQuery
  | lookupType
  | conditionalType
  | inferType
  | readonlyType
  | templateLiteralType
  | templateType
  | typePredicate
  | typePredicateAscription
  | assertsAscription
deriving DecidableEq, Inhabited

namespace Kind

/-- The kinds of leaves that name a symbol. Member names, labels and predefined types are not. -/
def isAnyIdentifier : Kind → Bool
  | identifier | typeIdentifier | shorthandPropertyIdentifier
  | shorthandPropertyIdentifierPattern => true
  | _ => false

end Kind

/-- What a child is to its parent, for the children that are looked up by it. -/
inductive Role where
  | name
  | otherName
  | source
  | declaration
  | body
  | value
  | type
  | key
  | label
  | pattern
  | parameter
  | parameters
  | decorator
  | object
  | property
  | callee
  | constructed
  | typeArguments
  | arguments
deriving DecidableEq, Inhabited

end CreatorMigration
