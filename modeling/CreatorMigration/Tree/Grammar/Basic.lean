import CreatorMigration.Tree.Shape

/-! # Parsing

A `Parser` takes tokens off the front of a list or fails. Nested constructs are parsed through a
`Parse` function, which answers a `Goal` with a parser; the grammar is a family of parsers over such
a function, so that none of them is recursive.

* `parts` of a shape are collected as lists, so that optional pieces vanish.
* `many` and its kin repeat a parser at most once per token that is left.
-/

namespace CreatorMigration.Grammar

abbrev Parser := StateT (List Token) Option

/-- What a nested construct may be. -/
inductive Goal where
  | statement
  /-- An expression without a top-level comma. In the middle of a conditional expression an arrow
  function with a return type must leave the colon of the conditional. -/
  | expression (beforeColon : Bool)
  /-- Expressions separated by commas. -/
  | sequence
  /-- An operand of a binary operator. -/
  | operand
  /-- What can be called, or extended: an operand without unary operators around it. -/
  | callee
  | type
  /-- A type that is no union, intersection or conditional. -/
  | typeOperand
  | pattern

abbrev Parse := Goal → Parser Shape

/-! ## Looking ahead -/

def failure {α : Type} : Parser α := fun _ => none

/-- The token `depth` tokens ahead. -/
def ahead (depth : Nat) : Parser (Option Token) := fun tokens => some (tokens[depth]?, tokens)

def peek : Parser (Option Token) := ahead 0

def check (holds : Token → Bool) (depth : Nat) : Parser Bool := do
  return (← ahead depth).any holds

def atMark (text : String) : Parser Bool := check (·.isPunctuation text) 0

def atWord (text : String) : Parser Bool := check (·.isWord text) 0

def atMarkAfter (depth : Nat) (text : String) : Parser Bool := check (·.isPunctuation text) depth

def atWordAfter (depth : Nat) (text : String) : Parser Bool := check (·.isWord text) depth

def atKind (kind : TokenKind) : Parser Bool := check (·.kind == kind) 0

/-- Whether the next token stands on a new line. -/
def onNewLine : Parser Bool := check (·.lineBreak) 0

def guarded {α : Type} (condition : Bool) (parser : Parser α) : Parser α :=
  if condition then parser else failure

/-! ## Taking tokens -/

/-- Takes a token that satisfies a test, as a leaf. -/
def takeIf (holds : Token → Bool) (kind : Kind) (role : Option Role) : Parser Shape
  | token :: rest => if holds token then some (.leaf kind role, rest) else none
  | [] => none

def mark (text : String) : Parser Shape := takeIf (·.isPunctuation text) .token none

def word (text : String) : Parser Shape := takeIf (·.isWord text) .token none

def oneOfWords (texts : List String) : Parser Shape :=
  takeIf (fun token => token.kind == .word && texts.contains token.text) .token none

def ofKind (kind : TokenKind) (result : Kind) : Parser Shape :=
  takeIf (·.kind == kind) result none

/-! ## Combining -/

def group (kind : Kind) (parts : List Shape) : Shape := .group kind none parts

/-- At most `fuel` repetitions, until the parser fails. -/
def repeatWhile {α : Type} (parser : Parser α) : Nat → Parser (List α)
  | 0, tokens => some ([], tokens)
  | fuel + 1, tokens =>
      match parser tokens with
      | some (first, rest) =>
          (repeatWhile parser fuel rest).map fun (others, left) => (first :: others, left)
      | none => some ([], tokens)

def many {α : Type} (parser : Parser α) : Parser (List α) := fun tokens =>
  repeatWhile parser tokens.length tokens

/-- Repeats a parser until the given one succeeds, with what that takes at the end. -/
def manyUntilGo {α : Type} (parser finish : Parser α) : Nat → Parser (List α)
  | 0, _ => none
  | fuel + 1, tokens =>
      match finish tokens with
      | some (last, rest) => some ([last], rest)
      | none =>
          match parser tokens with
          | some (first, rest) =>
              (manyUntilGo parser finish fuel rest).map fun (others, left) =>
                (first :: others, left)
          | none => none

def manyUntil {α : Type} (parser finish : Parser α) : Parser (List α) := fun tokens =>
  manyUntilGo parser finish (tokens.length + 1) tokens

/-- The parts of one construct or none. -/
def optionally (parser : Parser (List Shape)) : Parser (List Shape) := parser <|> pure []

def single (parser : Parser Shape) : Parser (List Shape) := do return [← parser]

/-- Repeats a step on what has been read so far, until the step declines. -/
def extendWhile (step : Shape → Parser (Option Shape)) : Nat → Shape → Parser Shape
  | 0, shape => pure shape
  | fuel + 1, shape => do
      match ← step shape with
      | some larger => extendWhile step fuel larger
      | none => pure shape

def extend (step : Shape → Parser (Option Shape)) (shape : Shape) : Parser Shape := fun tokens =>
  extendWhile step tokens.length shape tokens

/-- Items between commas up to a closing mark, which is taken too. Items may be left out. -/
def commaList (item : Parser (List Shape)) (close : String) : Parser (List Shape) := do
  let chunks ← manyUntil
    (do
      if ← atMark "," then single (mark ",")
      else
        let parts ← item
        guarded ((← atMark ",") || (← atMark close)) (pure parts))
    (single (mark close))
  return chunks.flatten

/-- The items in brackets, with the brackets. -/
def bracketed (opening close : String) (item : Parser (List Shape)) : Parser (List Shape) := do
  return (← mark opening) :: (← commaList item close)

def commaSeparated (item : Parser Shape) : Parser (List Shape) := do
  let first ← item
  let rest ← many do
    let comma ← mark ","
    return [comma, ← item]
  return first :: rest.flatten

/-! ## Brackets ahead -/

def opens (token : Token) : Bool :=
  token.kind == .holeOpen || token.isPunctuation "(" || token.isPunctuation "[" ||
    token.isPunctuation "\x7b"

def closes (token : Token) : Bool :=
  token.kind == .holeClose || token.isPunctuation ")" || token.isPunctuation "]" ||
    token.isPunctuation "\x7d"

/-- The tokens behind the bracket that closes the innermost of `depth` open ones. -/
def behindClosing : Nat → List Token → List Token
  | _, [] => []
  | depth, token :: rest =>
      if opens token then behindClosing (depth + 1) rest
      else if closes token then
        if depth ≤ 1 then rest else behindClosing (depth - 1) rest
      else behindClosing depth rest

/-- The token behind the brackets that open at `depth` tokens ahead. -/
def behindBrackets (depth : Nat) : Parser (Option Token) := fun tokens =>
  some ((behindClosing 0 (tokens.drop depth)).head?, tokens)

/-! ## Semicolons -/

/-- A semicolon, written or left out at the end of a line, of a block or of the unit. -/
def semicolon : Parser (List Shape) := fun tokens =>
  match tokens with
  | token :: rest =>
      if token.isPunctuation ";" then some ([.leaf .token none], rest)
      else if token.lineBreak || token.isPunctuation "\x7d" || token.kind == .finish then
        some ([.missingSemicolon], tokens)
      else none
  | [] => none

/-- The marks and words that continue the line before them, so that no semicolon is left out. -/
def continuesLine (token : Token) : Bool :=
  token.kind == .templateOpen || token.kind == .regex || token.isWord "in" ||
    token.isWord "instanceof" ||
    (token.kind == .punctuation &&
      !(["\x7b", "\x7d", "(", ")", "[", "]", "++", "--", "!", "~", "@", "..."].contains token.text))

/-- The semicolon that may be left out behind a block. -/
def trailingSemicolon : Parser (List Shape) := fun tokens =>
  match tokens with
  | token :: _ =>
      if token.kind == .finish || token.isPunctuation "\x7d" ||
          (token.lineBreak && !continuesLine token) then
        some ([.missingSemicolon], tokens)
      else some ([], tokens)
  | [] => some ([], tokens)

end CreatorMigration.Grammar
